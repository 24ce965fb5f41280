import EntityModel.Proofs.Catalog.Acceptance

/-!
# Parts of a document

Between the query input and the root types stand the *parts*: both sides of each entity and the
page that it is read in, and both sides of each shape that an entity embeds in sight of clients.
A part that is needed several times is still one part. Each part stands behind a claim on its
name, and the claims of a coherent set are apart, so no two parts have one name.

Results:
* `Part.Of.claim`: a part has a claim on its name.
* `Part.eq_of_name_eq`: in a coherent set, parts of one name are one part.
-/
namespace EntityModel.Sdl

/-- What a block of a document is for. -/
inductive Part where
  | own (entity : Schema) (side : Side)
  | page (entity : Schema)
  | shape (name : String) (target : Schema) (side : Side)

namespace Part

/-- The type name of the part. -/
def name : Part → String
  | own entity side => entity.name ++ side.ending
  | page entity => entity.resultsName
  | shape name _ side => name ++ side.ending

/-- The schema whose fields the part shows, and the side. -/
def shows? : Part → Option (Schema × Side)
  | own entity side => some (entity, side)
  | page _ => none
  | shape _ target side => some (target, side)

/-- The parts that some entities need. -/
inductive Of (entities : List Schema) : Part → Prop
  | own {entity : Schema} (side : Side) : entity ∈ entities → Of entities (.own entity side)
  | page {entity : Schema} : entity ∈ entities → Of entities (.page entity)
  | shape {entity inner target : Schema} {chain : List Field} {field : Field} (side : Side) :
      entity ∈ entities → entity.EmbedsAt chain inner field target →
      Of entities (.shape (inner.shapeName field) target side)

/-- A part shows a schema that is found in an entity. -/
theorem Of.embeds {entities : List Schema} {part : Part} (h : part.Of entities) {schema : Schema}
    {side : Side} (hs : part.shows? = some (schema, side)) :
    ∃ entity ∈ entities, ∃ chain, entity.Embeds Field.Visible chain schema := by
  cases h with
  | own side he => cases hs; exact ⟨_, he, [], .here _⟩
  | page he => cases hs
  | shape side he hat =>
    cases hs
    exact ⟨_, he, _, hat.chain.snoc hat.mem hat.visible hat.type⟩

/-- The claimant stands behind the part. -/
def ClaimedBy : Part → Claimant → Prop
  | own entity .output, claimant => claimant = .schema entity.name
  | own entity .input, claimant => claimant = .generated entity.name
  | page entity, claimant => claimant = .generated entity.name
  | shape _ target side, claimant => ∃ path, claimant = .shape path target side

theorem Of.claim {schemas : List Schema} {part : Part}
    (h : part.Of (schemas.filter (·.isEntity))) :
    ∃ claimant, Claim.Of schemas ⟨part.name, claimant⟩ ∧ part.ClaimedBy claimant := by
  cases h with
  | own side he =>
    obtain ⟨hm, hi⟩ := List.mem_filter.1 he
    cases side with
    | output =>
      have hname : ∀ entity : Schema, (Part.own entity .output).name = entity.name :=
        fun _ => String.append_empty
      exact ⟨_, hname _ ▸ .own hm, rfl⟩
    | input => exact ⟨_, .input hm hi, rfl⟩
  | page he =>
    obtain ⟨hm, hi⟩ := List.mem_filter.1 he
    exact ⟨_, .results hm hi, rfl⟩
  | shape side he hat =>
    obtain ⟨hm, hi⟩ := List.mem_filter.1 he
    exact ⟨_, .shape side hm hi hat, _, rfl⟩

/-! ## Claimants tell parts apart -/

theorem ClaimedBy.schema {part : Part} {name : String} (h : part.ClaimedBy (.schema name)) :
    ∃ entity, part = .own entity .output ∧ entity.name = name := by
  cases part with
  | own entity side => cases side <;> cases h; exact ⟨entity, rfl, rfl⟩
  | page entity => cases h
  | shape => obtain ⟨_, h⟩ := h; cases h

theorem ClaimedBy.generated {part : Part} {name : String} (h : part.ClaimedBy (.generated name)) :
    ∃ entity, (part = .own entity .input ∨ part = .page entity) ∧ entity.name = name := by
  cases part with
  | own entity side => cases side <;> cases h; exact ⟨entity, .inl rfl, rfl⟩
  | page entity => cases h; exact ⟨entity, .inr rfl, rfl⟩
  | shape => obtain ⟨_, h⟩ := h; cases h

theorem ClaimedBy.shape {part : Part} {path : String} {target : Schema} {side : Side}
    (h : part.ClaimedBy (.shape path target side)) : ∃ name, part = .shape name target side := by
  cases part with
  | own entity other => cases other <;> cases h
  | page entity => cases h
  | shape name => obtain ⟨_, h⟩ := h; cases h; exact ⟨name, rfl⟩

theorem Of.mem_of_own {entities : List Schema} {entity : Schema} {side : Side}
    (h : (Part.own entity side).Of entities) : entity ∈ entities := by
  cases h; assumption

theorem Of.mem_of_generated {entities : List Schema} {part : Part} {entity : Schema}
    (h : part.Of entities) (hp : part = .own entity .input ∨ part = .page entity) :
    entity ∈ entities := by
  rcases hp with rfl | rfl
  · exact h.mem_of_own
  · cases h; assumption

theorem input_name_ne_page (entity : Schema) : (own entity .input).name ≠ (page entity).name := by
  simp [name, Schema.resultsName, Side.ending]

/-- Parts of one name and one claimant are one part, where entities are told by their names. -/
theorem eq_of_claimedBy {entities : List Schema}
    (hu : ∀ a ∈ entities, ∀ b ∈ entities, a.name = b.name → a = b) {p q : Part}
    (hp : p.Of entities) (hq : q.Of entities) {claimant : Claimant} (hcp : p.ClaimedBy claimant)
    (hcq : q.ClaimedBy claimant) (hn : p.name = q.name) : p = q := by
  cases claimant with
  | schema name =>
    obtain ⟨a, rfl, ha⟩ := hcp.schema
    obtain ⟨b, rfl, hb⟩ := hcq.schema
    rw [hu a hp.mem_of_own b hq.mem_of_own (ha.trans hb.symm)]
  | generated name =>
    obtain ⟨a, hpa, ha⟩ := hcp.generated
    obtain ⟨b, hqb, hb⟩ := hcq.generated
    obtain rfl := hu a (hp.mem_of_generated hpa) b (hq.mem_of_generated hqb) (ha.trans hb.symm)
    rcases hpa with rfl | rfl
    · rcases hqb with rfl | rfl
      · rfl
      · exact absurd hn (input_name_ne_page a)
    · rcases hqb with rfl | rfl
      · exact absurd hn.symm (input_name_ne_page a)
      · rfl
  | shape path target side =>
    obtain ⟨n, rfl⟩ := hcp.shape
    obtain ⟨m, rfl⟩ := hcq.shape
    rw [(String.append_left_inj _).1 hn]

/-- In a coherent set, parts of one name are one part. -/
theorem eq_of_name_eq {schemas : List Schema} (h : Coherent schemas) {p q : Part}
    (hp : p.Of (schemas.filter (·.isEntity))) (hq : q.Of (schemas.filter (·.isEntity)))
    (hn : p.name = q.name) : p = q := by
  obtain ⟨c, hc, hcp⟩ := hp.claim
  obtain ⟨c', hc', hcq⟩ := hq.claim
  rcases h.claims _ _ hc hc' hn with he | ⟨path, path', target, side, he, he'⟩
  · have hu : ∀ a ∈ schemas.filter (·.isEntity), ∀ b ∈ schemas.filter (·.isEntity),
        a.name = b.name → a = b :=
      fun a ha b hb he => h.keys.eq_of_key_eq (List.mem_filter.1 ha).1 (List.mem_filter.1 hb).1
        (congrArg lookupKey he)
    exact eq_of_claimedBy hu hp hq hcp ((Claim.mk.inj he).2 ▸ hcq) hn
  · simp only at he he'
    obtain ⟨n, rfl⟩ := ClaimedBy.shape (he ▸ hcp)
    obtain ⟨n', rfl⟩ := ClaimedBy.shape (he' ▸ hcq)
    rw [(String.append_left_inj _).1 hn]

end Part

end EntityModel.Sdl
