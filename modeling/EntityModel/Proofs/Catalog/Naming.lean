import EntityModel.Catalog
import EntityModel.Proofs.IssueTree

/-!
# Names across schemas, without order

The check of names goes through the schemas once: it looks back for a namesake, holds the first
claim on each type name, and compares later claims with that one alone. Sharing a type is an
equivalence on the claims that share anything, so what the check finds does not depend on the
order.

Results:
* `registrations_messages_eq_nil_iff`: no schema is reported exactly when all keys differ.
* `conflicts_eq_nil_iff`: no claim is reported exactly when claims on one name share it, two by
  two.
* `namingMessages_eq_nil_iff`, `catalogIssues_isEmpty_iff`: the same for the whole check.
-/
namespace EntityModel

/-- The keys by which schemas are looked up all differ. -/
def KeysDiffer (schemas : List Schema) : Prop :=
  schemas.Pairwise fun a b => lookupKey a.name ≠ lookupKey b.name

/-! ## Namesakes -/

theorem KeysDiffer.eq_of_key_eq {schemas : List Schema} (h : KeysDiffer schemas) {a b : Schema}
    (ha : a ∈ schemas) (hb : b ∈ schemas) (he : lookupKey a.name = lookupKey b.name) : a = b := by
  have hall : ∀ x ∈ schemas, ∀ y ∈ schemas, lookupKey x.name = lookupKey y.name → x = y :=
    List.Pairwise.forall_of_forall_of_flip (fun _ _ _ => rfl) (h.imp fun hne heq => absurd heq hne)
      (h.imp fun hne heq => absurd heq.symm hne)
  exact hall a ha b hb he

/-- When keys differ, a name stands for the one schema that has it. -/
theorem KeysDiffer.find?_eq_some_iff {schemas : List Schema} (h : KeysDiffer schemas) {name : String}
    {schema : Schema} :
    schemas.find? (fun other => lookupKey other.name == lookupKey name) = some schema ↔
      schema ∈ schemas ∧ lookupKey schema.name = lookupKey name := by
  constructor
  · intro hfind
    have hkey := List.find?_some hfind
    exact ⟨List.mem_of_find?_eq_some hfind, by simpa using hkey⟩
  · intro ⟨hm, hkey⟩
    cases hfind : schemas.find? fun other => lookupKey other.name == lookupKey name with
    | none =>
      have := List.find?_eq_none.1 hfind schema hm
      simp [hkey] at this
    | some other =>
      have hm' := List.mem_of_find?_eq_some hfind
      have hkey' : lookupKey other.name = lookupKey name := by simpa using List.find?_some hfind
      rw [h.eq_of_key_eq hm' hm (hkey'.trans hkey.symm)]

theorem KeysDiffer.reverse {schemas : List Schema} (h : KeysDiffer schemas) :
    KeysDiffer schemas.reverse :=
  List.pairwise_reverse.2 (h.imp fun hne => hne.symm)

theorem KeysDiffer.nodup {schemas : List Schema} (h : KeysDiffer schemas) : schemas.Nodup := by
  have hne : ∀ {a b : Schema}, lookupKey a.name ≠ lookupKey b.name → a ≠ b := by
    intro a b hne heq
    rw [heq] at hne
    exact hne rfl
  exact List.Pairwise.imp hne h

theorem Registration.messages_eq_nil_iff (registration : Registration) :
    registration.messages = [] ↔ registration.namesake = none := by
  unfold messages
  cases registration.namesake <;> simp

theorem registrationsAfter_messages_eq_nil_iff (earlier schemas : List Schema) :
    (registrationsAfter earlier schemas).flatMap Registration.messages = [] ↔
      (∀ schema ∈ schemas, ∀ other ∈ earlier, lookupKey other.name ≠ lookupKey schema.name) ∧
        KeysDiffer schemas := by
  induction schemas generalizing earlier with
  | nil => simp [registrationsAfter, KeysDiffer]
  | cons schema rest ih =>
    simp only [registrationsAfter, List.flatMap_cons, List.append_eq_nil_iff,
      Registration.messages_eq_nil_iff, List.find?_eq_none, beq_iff_eq, ih]
    simp only [KeysDiffer, List.pairwise_cons, List.mem_cons, forall_eq_or_imp]
    constructor
    · rintro ⟨hs, hr, hp⟩
      exact ⟨⟨hs, fun other ho => (hr other ho).2⟩, fun other ho => (hr other ho).1, hp⟩
    · rintro ⟨⟨hs, hr⟩, hk, hp⟩
      exact ⟨hs, fun other ho => ⟨hk other ho, hr other ho⟩, hp⟩

theorem registrations_messages_eq_nil_iff (schemas : List Schema) :
    (registrations schemas).flatMap Registration.messages = [] ↔ KeysDiffer schemas := by
  rw [registrations, registrationsAfter_messages_eq_nil_iff]
  simp

/-! ## Claims -/

/-- The claim of a schema on its own name. -/
def Schema.ownClaim (schema : Schema) : Claim := ⟨schema.name, .schema schema.name⟩

/-- All claims of schemas without namesakes. -/
def allClaims (schemas : List Schema) : List Claim :=
  schemas.map Schema.ownClaim ++ (schemas.filter (·.isEntity)).flatMap Schema.entityClaims

theorem registrationsAfter_claims (earlier schemas : List Schema)
    (h : (registrationsAfter earlier schemas).flatMap Registration.messages = []) :
    (registrationsAfter earlier schemas).flatMap Registration.claims
      = schemas.map Schema.ownClaim := by
  induction schemas generalizing earlier with
  | nil => rfl
  | cons schema rest ih =>
    simp only [registrationsAfter, List.flatMap_cons, List.append_eq_nil_iff,
      Registration.messages_eq_nil_iff] at h ⊢
    rw [ih _ h.2]
    simp [Registration.claims, h.1, Schema.ownClaim]

theorem claimsOf_eq_allClaims {schemas : List Schema} (h : KeysDiffer schemas) :
    claimsOf schemas = allClaims schemas := by
  rw [claimsOf, registrations,
    registrationsAfter_claims [] schemas ((registrations_messages_eq_nil_iff schemas).2 h), allClaims]

namespace Claimant

/-- Two claimants that share with a third share with each other. -/
theorem sharesWith_of_shared {a b c : Claimant} (hb : a.sharesWith b = true)
    (hc : a.sharesWith c = true) : b.sharesWith c = true := by
  cases a <;> cases b <;> cases c <;> simp_all [sharesWith]

theorem sharesWith_eq_true_iff {a b : Claimant} : a.sharesWith b = true ↔
    ∃ path path' target side, a = .shape path target side ∧ b = .shape path' target side := by
  constructor
  · intro h
    cases a <;> cases b <;> simp [sharesWith] at h
    obtain ⟨rfl, rfl⟩ := h
    exact ⟨_, _, _, _, rfl, rfl⟩
  · intro h
    obtain ⟨path, path', target, side, rfl, rfl⟩ := h
    simp [sharesWith]

end Claimant

/-- Claims on one name share it. -/
def Claim.Compatible (a b : Claim) : Prop :=
  a.typeName = b.typeName → a.claimant.sharesWith b.claimant = true

theorem Claim.Compatible.symm {a b : Claim} (h : a.Compatible b) : b.Compatible a := by
  intro he
  rw [Claimant.sharesWith_comm]
  exact h he.symm

/-- The claim shares its name with the one that is held for it, if there is one. -/
def Claim.FitsHeld (held : List Claim) (claim : Claim) : Prop :=
  ∀ first, held.find? (·.typeName == claim.typeName) = some first →
    first.claimant.sharesWith claim.claimant = true

/-- A claim on a free name is held for the later ones. -/
theorem Claim.fitsHeld_cons_iff {held : List Claim} {claim other : Claim}
    (hfree : held.find? (·.typeName == claim.typeName) = none) :
    other.FitsHeld (claim :: held) ↔ claim.Compatible other ∧ other.FitsHeld held := by
  unfold FitsHeld Compatible
  by_cases he : claim.typeName = other.typeName
  · rw [he] at hfree
    simp [he, hfree]
  · simp [he, beq_false_of_ne he]

theorem conflictsAfter_eq_nil_iff (held claims : List Claim) :
    conflictsAfter held claims = [] ↔
      (∀ claim ∈ claims, claim.FitsHeld held) ∧ claims.Pairwise Claim.Compatible := by
  induction claims generalizing held with
  | nil => simp [conflictsAfter]
  | cons claim rest ih =>
    rw [conflictsAfter, List.pairwise_cons]
    simp only [List.mem_cons, forall_eq_or_imp]
    split
    · next hfree =>
      have hfit : claim.FitsHeld held := by
        intro first hfirst
        rw [hfree] at hfirst
        cases hfirst
      simp only [ih, Claim.fitsHeld_cons_iff hfree]
      constructor
      · intro ⟨hr, hp⟩
        exact ⟨⟨hfit, fun other ho => (hr other ho).2⟩, fun other ho => (hr other ho).1, hp⟩
      · intro ⟨⟨_, hr⟩, hc, hp⟩
        exact ⟨fun other ho => ⟨hc other ho, hr other ho⟩, hp⟩
    · next first hfirst =>
      split
      · next hshare =>
        rw [ih]
        constructor
        · intro ⟨hr, hp⟩
          refine ⟨⟨?_, hr⟩, ?_, hp⟩
          · intro first' hfirst'
            rw [hfirst] at hfirst'
            cases hfirst'
            exact hshare
          · -- both share with the claim that is held, hence with each other
            intro other ho he
            exact Claimant.sharesWith_of_shared hshare (hr other ho first (he ▸ hfirst))
        · intro ⟨⟨_, hr⟩, _, hp⟩
          exact ⟨hr, hp⟩
      · next hshare =>
        simp only [reduceCtorEq, false_iff, not_and]
        intro ⟨hfit, _⟩
        exact absurd (hfit first hfirst) hshare

theorem conflicts_eq_nil_iff (claims : List Claim) :
    conflicts claims = [] ↔ claims.Pairwise Claim.Compatible := by
  rw [conflicts, conflictsAfter_eq_nil_iff]
  simp [Claim.FitsHeld]

/-! ## The whole check -/

theorem namingMessages_eq_nil_iff (schemas : List Schema) : namingMessages schemas = [] ↔
    KeysDiffer schemas ∧ (allClaims schemas).Pairwise Claim.Compatible := by
  rw [namingMessages, List.append_eq_nil_iff, List.map_eq_nil_iff,
    registrations_messages_eq_nil_iff, conflicts_eq_nil_iff]
  constructor
  · intro ⟨hk, hc⟩
    exact ⟨hk, claimsOf_eq_allClaims hk ▸ hc⟩
  · intro ⟨hk, hc⟩
    exact ⟨hk, claimsOf_eq_allClaims hk ▸ hc⟩

theorem catalogIssues_isEmpty_iff (schemas : List Schema) :
    (catalogIssues schemas).isEmpty = true ↔ KeysDiffer schemas ∧
      (allClaims schemas).Pairwise Claim.Compatible ∧
        ∀ schema ∈ schemas, schema.linkMessages schemas = [] := by
  have hroot : (⟨namingMessages schemas, []⟩ : IssueTree).isEmpty = true ↔
      namingMessages schemas = [] := by
    simp [IssueTree.isEmpty_eq, IssueTree.allEmpty]
  rw [catalogIssues, IssueTree.isEmpty_foldl_addAllFor, hroot, namingMessages_eq_nil_iff, and_assoc]

end EntityModel
