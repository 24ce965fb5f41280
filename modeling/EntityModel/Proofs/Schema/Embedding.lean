import EntityModel.Catalog.Link
import EntityModel.Proofs.Schema.Frozen

/-!
# Embedded shapes and where they are found

A schema embeds the shapes of its embedded fields, these embed the shapes of theirs, and so on. A
chain of embedded fields says where a shape is found. The claims on type names and the references
of a schema are collected by recursion over its fields; here both are told by chains instead.

Results:
* `Embeds.frozen`, `Embeds.sizeOf_lt`: a shape in a frozen schema is frozen and is not the schema.
* `mem_embeddedClaims`: a schema claims exactly the two names of each shape that it embeds in
  sight of clients.
* `mem_links`: the references of a schema are exactly those at the end of a chain.
-/
namespace EntityModel

/-- Clients see the field. -/
def Field.Visible (field : Field) : Prop := field.flags.internal = false

theorem Field.visible_of_isShown {field : Field} {side : Side} (h : field.isShown side = true) :
    field.Visible := by
  simp only [Field.isShown, Bool.and_eq_true, Bool.not_eq_true'] at h
  exact h.1

namespace Schema

/-- `inner` is found in `schema` under a chain of embedded fields with the property `p`, each in
the shape of the one before. -/
inductive Embeds (p : Field → Prop) : Schema → List Field → Schema → Prop
  | here (schema : Schema) : Embeds p schema [] schema
  | under {schema target inner : Schema} {field : Field} {chain : List Field} :
      field ∈ schema.fields → p field → field.type = .embedded target →
      Embeds p target chain inner → Embeds p schema (field :: chain) inner

/-- `field` embeds `target` in sight of clients, in a schema `inner` that is itself found in
`root` under a chain of such fields. -/
structure EmbedsAt (root : Schema) (chain : List Field) (inner : Schema) (field : Field)
    (target : Schema) : Prop where
  chain : root.Embeds Field.Visible chain inner
  mem : field ∈ inner.fields
  visible : field.Visible
  type : field.type = .embedded target

/-- The name of the shape of a field: the schema's name with the capitalised name of the field. -/
def shapeName (schema : Schema) (field : Field) : String := schema.name ++ Text.capitalize field.name

/-! ## Chains -/

theorem sizeOf_target_lt {schema target : Schema} {field : Field} (hf : field ∈ schema.fields)
    (ht : field.target? = some target) : sizeOf target < sizeOf schema := by
  have hfield : sizeOf field < sizeOf schema.fields := List.sizeOf_lt_of_mem hf
  have htarget : sizeOf target < sizeOf field := by
    obtain ⟨name, type, flags, description, owner⟩ := field
    cases type <;> simp [Field.target?, FieldType.target?] at ht
    all_goals subst ht; simp; omega
  have hschema : sizeOf schema.fields < sizeOf schema := by
    cases schema; simp
  omega

theorem target?_of_embedded {field : Field} {target : Schema} (h : field.type = .embedded target) :
    field.target? = some target := by
  simp [Field.target?, h, FieldType.target?]

theorem target?_of_reference {field : Field} {target : Schema} (h : field.type = .reference target) :
    field.target? = some target := by
  simp [Field.target?, h, FieldType.target?]

namespace Embeds

variable {p : Field → Prop} {schema inner target : Schema} {chain : List Field} {field : Field}

theorem trans {rest : List Field} (h : schema.Embeds p chain inner)
    (h' : inner.Embeds p rest target) : schema.Embeds p (chain ++ rest) target := by
  induction h with
  | here => exact h'
  | under hf hp ht _ ih => exact .under hf hp ht (ih h')

theorem snoc (h : schema.Embeds p chain inner) (hf : field ∈ inner.fields) (hp : p field)
    (ht : field.type = .embedded target) : schema.Embeds p (chain ++ [field]) target :=
  h.trans (.under hf hp ht (.here target))

/-- The last field of a chain is a field of what the rest of the chain leads to. -/
theorem unsnoc (h : schema.Embeds p (chain ++ [field]) target) : ∃ inner,
    schema.Embeds p chain inner ∧ field ∈ inner.fields ∧ p field ∧ field.type = .embedded target := by
  induction chain generalizing schema with
  | nil =>
    cases h with
    | under hf hp ht hrest => cases hrest; exact ⟨schema, .here schema, hf, hp, ht⟩
  | cons first rest ih =>
    cases h with
    | under hf hp ht hrest =>
      obtain ⟨inner, hc, hlast⟩ := ih hrest
      exact ⟨inner, .under hf hp ht hc, hlast⟩

theorem imp {q : Field → Prop} (h : schema.Embeds p chain inner) (hpq : ∀ field, p field → q field) :
    schema.Embeds q chain inner := by
  induction h with
  | here => exact .here _
  | under hf hp ht _ ih => exact .under hf (hpq _ hp) ht ih

theorem frozen (h : schema.Embeds p chain inner) (hs : schema.Frozen) : inner.Frozen := by
  induction h with
  | here => exact hs
  | under hf _ ht _ ih => exact ih (hs.target hf (target?_of_embedded ht))

theorem sizeOf_le (h : schema.Embeds p chain inner) : sizeOf inner ≤ sizeOf schema := by
  induction h with
  | here => exact Nat.le_refl _
  | under hf _ ht _ ih =>
    have := sizeOf_target_lt hf (target?_of_embedded ht)
    omega

end Embeds

namespace EmbedsAt

variable {root inner target : Schema} {chain : List Field} {field : Field}

theorem frozen (h : root.EmbedsAt chain inner field target) (hr : root.Frozen) : target.Frozen :=
  (h.chain.frozen hr).target h.mem (target?_of_embedded h.type)

theorem isEmbedded (h : root.EmbedsAt chain inner field target) : field.isEmbedded = true := by
  simp [Field.isEmbedded, h.type]

/-- No shape embeds itself. -/
theorem sizeOf_lt (h : root.EmbedsAt chain inner field target) : sizeOf target < sizeOf root := by
  have := sizeOf_target_lt h.mem (target?_of_embedded h.type)
  have := h.chain.sizeOf_le
  omega

theorem under {schema : Schema} {first : Field} (h : root.EmbedsAt chain inner field target)
    (hf : first ∈ schema.fields) (hv : first.Visible) (ht : first.type = .embedded root) :
    schema.EmbedsAt (first :: chain) inner field target :=
  ⟨.under hf hv ht h.chain, h.mem, h.visible, h.type⟩

end EmbedsAt

theorem Frozen.typeName {schema : Schema} (h : schema.Frozen) {field : Field}
    (hf : field ∈ schema.fields) (he : field.isEmbedded = true) :
    field.typeName = .ok (schema.shapeName field) := by
  simp [Field.typeName, he, h.owned hf, shapeName]

theorem Frozen.embeddedName {schema : Schema} (h : schema.Frozen) {field : Field}
    (hf : field ∈ schema.fields) (he : field.isEmbedded = true) (side : Side) :
    field.embeddedName side = .ok (schema.shapeName field ++ side.ending) := by
  simp [Field.embeddedName, h.typeName hf he, Except.map]

/-! ## Claims -/

/-- The dotted path of a chain that starts at `path`. -/
def chainPath (path : String) (chain : List Field) : String :=
  chain.foldl (fun path field => path ++ "." ++ field.name) path

/-- The claims of one field. -/
def fieldClaims (path : String) (field : Field) : List Claim :=
  match field.type with
  | .embedded target =>
    if field.flags.internal then []
    else shapeClaims field target (path ++ "." ++ field.name)
      ++ target.embeddedClaims (path ++ "." ++ field.name)
  | _ => []

theorem embeddedClaims_eq_flatMap (schema : Schema) (path : String) :
    schema.embeddedClaims path = schema.fields.flatMap (fieldClaims path) := by
  rw [embeddedClaims_eq]
  induction schema.fields with
  | nil => rfl
  | cons field rest ih =>
    obtain ⟨name, type, flags, description, owner⟩ := field
    cases type <;> simp [embeddedClaimsOf, fieldClaims, ih]

theorem mem_fieldClaims {path : String} {field : Field} {claim : Claim} :
    claim ∈ fieldClaims path field ↔ ∃ target, field.type = .embedded target ∧ field.Visible ∧
      (claim ∈ shapeClaims field target (path ++ "." ++ field.name) ∨
        claim ∈ target.embeddedClaims (path ++ "." ++ field.name)) := by
  obtain ⟨name, type, ⟨_, _, _, _, internal, _, _⟩, description, owner⟩ := field
  cases type <;> cases internal <;> simp [fieldClaims, Field.Visible]

theorem mem_shapeClaims {schema target : Schema} (hs : schema.Frozen) {field : Field}
    (hf : field ∈ schema.fields) (ht : field.type = .embedded target) {path : String}
    {claim : Claim} : claim ∈ shapeClaims field target path ↔
      ∃ side : Side, claim = ⟨schema.shapeName field ++ side.ending, .shape path target side⟩ := by
  have he : field.isEmbedded = true := by simp [Field.isEmbedded, ht]
  simp only [shapeClaims, hs.typeName hf he, List.mem_cons, List.not_mem_nil, or_false]
  constructor
  · intro h
    rcases h with rfl | rfl
    · exact ⟨.output, by simp [Side.ending]⟩
    · exact ⟨.input, rfl⟩
  · intro h
    obtain ⟨side, rfl⟩ := h
    cases side
    · left; simp [Side.ending]
    · right; rfl

/-- A frozen schema claims the two names of each shape that it embeds in sight of clients. -/
theorem mem_embeddedClaims {schema : Schema} (hs : schema.Frozen) {path : String} {claim : Claim} :
    claim ∈ schema.embeddedClaims path ↔ ∃ chain inner field target, ∃ side : Side,
      schema.EmbedsAt chain inner field target ∧ claim = ⟨inner.shapeName field ++ side.ending,
        .shape (chainPath path (chain ++ [field])) target side⟩ := by
  induction schema using Schema.induct generalizing path with
  | step schema ih =>
    rw [embeddedClaims_eq_flatMap, List.mem_flatMap]
    constructor
    · intro ⟨field, hf, hc⟩
      obtain ⟨target, ht, hv, hc | hc⟩ := mem_fieldClaims.1 hc
      · obtain ⟨side, rfl⟩ := (mem_shapeClaims hs hf ht).1 hc
        exact ⟨[], schema, field, target, side, ⟨.here schema, hf, hv, ht⟩, rfl⟩
      · have ht' := target?_of_embedded ht
        obtain ⟨chain, inner, last, shape, side, h, rfl⟩ := (ih field hf target ht' (hs.target hf ht')).1 hc
        exact ⟨field :: chain, inner, last, shape, side, h.under hf hv ht, rfl⟩
    · intro h
      obtain ⟨chain, inner, last, shape, side, ⟨hchain, hl, hv, ht⟩, rfl⟩ := h
      cases hchain with
      | here =>
        refine ⟨last, hl, mem_fieldClaims.2 ⟨shape, ht, hv, .inl ?_⟩⟩
        exact (mem_shapeClaims hs hl ht).2 ⟨side, rfl⟩
      | under hf hvf htf hrest =>
        have htf' := target?_of_embedded htf
        refine ⟨_, hf, mem_fieldClaims.2 ⟨_, htf, hvf, .inr ?_⟩⟩
        exact (ih _ hf _ htf' (hs.target hf htf')).2
          ⟨_, inner, last, shape, side, ⟨hrest, hl, hv, ht⟩, rfl⟩

/-! ## References -/

/-- The references of one field. -/
def fieldLinks (field : Field) : List Link :=
  match field.type with
  | .reference target => [⟨[field.name], target⟩]
  | .embedded target => target.links.map (Link.under field.name)
  | .scalar _ => []

theorem links_eq_flatMap (schema : Schema) : schema.links = schema.fields.flatMap fieldLinks := by
  rw [links_eq]
  induction schema.fields with
  | nil => rfl
  | cons field rest ih =>
    obtain ⟨name, type, flags, description, owner⟩ := field
    cases type <;> simp [linksOf, fieldLinks, ih]

/-- The references of a schema are the ones at the end of a chain of embedded fields. -/
theorem mem_links {schema : Schema} {link : Link} :
    link ∈ schema.links ↔ ∃ chain inner field, schema.Embeds (fun _ => True) chain inner ∧
      field ∈ inner.fields ∧ field.type = .reference link.target ∧
      link.path = (chain ++ [field]).map (·.name) := by
  induction schema using Schema.induct generalizing link with
  | step schema ih =>
    simp only [links_eq_flatMap, List.mem_flatMap]
    constructor
    · intro ⟨field, hf, hl⟩
      unfold fieldLinks at hl
      split at hl
      · next target ht =>
        obtain rfl := List.mem_singleton.1 hl
        exact ⟨[], schema, field, .here schema, hf, ht, rfl⟩
      · next target ht =>
        obtain ⟨below, hb, rfl⟩ := List.mem_map.1 hl
        obtain ⟨chain, inner, last, hc, hlast, htl, hpath⟩ :=
          (ih field hf target (target?_of_embedded ht)).1 hb
        exact ⟨field :: chain, inner, last, .under hf trivial ht hc, hlast, htl,
          by simp [Link.under, hpath]⟩
      · cases hl
    · intro ⟨chain, inner, last, hc, hlast, htl, hpath⟩
      cases hc with
      | here =>
        refine ⟨last, hlast, ?_⟩
        obtain ⟨path, target⟩ := link
        simp only [List.nil_append, List.map_cons, List.map_nil] at htl hpath
        simp [fieldLinks, htl, hpath]
      | @under _ target _ field chain hf _ ht hrest =>
        refine ⟨field, hf, ?_⟩
        obtain ⟨path, end'⟩ := link
        have hb : (⟨(chain ++ [last]).map (·.name), end'⟩ : Link) ∈ target.links :=
          (ih field hf target (target?_of_embedded ht)).2 ⟨chain, inner, last, hrest, hlast, htl, rfl⟩
        simp only [fieldLinks, ht, List.mem_map]
        exact ⟨_, hb, by simpa [Link.under] using hpath.symm⟩

end Schema

end EntityModel
