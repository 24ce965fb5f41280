import EntityModel.Schema.TypeName

/-!
# Claims on type names

Every type that a document would declare claims its name: each schema, the input and result types
of each entity, and both sides of each shape that an entity embeds. A name is claimed once, but
for one shape reached on several ways.

Results:
* `sharesWith_comm`: sharing is symmetric.
* `embeddedClaims_eq`, `embeddedClaimsOf_append`: a schema claims what its fields claim, field by
  field.
-/
namespace EntityModel

/-- What claims a type name. -/
inductive Claimant where
  | schema (name : String)
  | generated (entity : String)
  | shape (path : String) (target : Schema) (side : Side)

/-- A claimant with the name that it claims. -/
structure Claim where
  typeName : String
  claimant : Claimant

namespace Claimant

/-- Two claimants stand for one type: the same instance on the same side. -/
def sharesWith : Claimant → Claimant → Bool
  | shape _ target side, shape _ target' side' => target = target' && side = side'
  | _, _ => false

/-- The claimant in words. -/
def label : Claimant → String
  | schema name => s!"schema '{name}'"
  | generated entity => s!"a type generated for '{entity}'"
  | shape path _ .output => s!"the embedded type of '{path}'"
  | shape path _ .input => s!"the embedded input of '{path}'"

theorem sharesWith_comm (a b : Claimant) : a.sharesWith b = b.sharesWith a := by
  cases a <;> cases b <;> simp [sharesWith, eq_comm]

end Claimant

namespace Schema

/-- The claims on both sides of an embedded field found at `path`. -/
def shapeClaims (field : Field) (target : Schema) (path : String) : List Claim :=
  match field.typeName with
  | .ok name =>
    [⟨name, .shape path target .output⟩, ⟨name ++ Side.input.ending, .shape path target .input⟩]
  | .error _ => []

mutual

/-- The claims of the shapes that a schema at `path` embeds, outer ones first. Internal fields
claim nothing. -/
def embeddedClaims : Schema → String → List Claim
  | ⟨_, _, _, _, _, fields⟩, path => embeddedClaimsOf fields path
termination_by structural schema => schema

/-- The claims of the shapes that the fields embed. -/
def embeddedClaimsOf : List Field → String → List Claim
  | [], _ => []
  | ⟨name, .embedded target, flags, description, owner⟩ :: rest, path =>
    (if flags.internal then []
      else shapeClaims ⟨name, .embedded target, flags, description, owner⟩ target (path ++ "." ++ name)
        ++ target.embeddedClaims (path ++ "." ++ name))
    ++ embeddedClaimsOf rest path
  | ⟨_, .scalar _, _, _, _⟩ :: rest, path => embeddedClaimsOf rest path
  | ⟨_, .reference _, _, _, _⟩ :: rest, path => embeddedClaimsOf rest path
termination_by structural fields => fields

end

theorem embeddedClaims_eq (schema : Schema) (path : String) :
    schema.embeddedClaims path = embeddedClaimsOf schema.fields path := by
  cases schema
  rw [embeddedClaims]

theorem embeddedClaimsOf_append (as bs : List Field) (path : String) :
    embeddedClaimsOf (as ++ bs) path = embeddedClaimsOf as path ++ embeddedClaimsOf bs path := by
  induction as with
  | nil => simp [embeddedClaimsOf]
  | cons a rest ih =>
    obtain ⟨name, type, flags, description, owner⟩ := a
    cases type <;> simp [embeddedClaimsOf, ih]

/-- The name of an entity's input type. -/
def inputName (schema : Schema) : String := schema.name ++ "Input"

/-- The name of an entity's result type. -/
def resultsName (schema : Schema) : String := schema.name ++ "QueryResults"

/-- The claims of an entity besides its own name. -/
def entityClaims (schema : Schema) : List Claim :=
  [⟨schema.inputName, .generated schema.name⟩, ⟨schema.resultsName, .generated schema.name⟩]
  ++ schema.embeddedClaims schema.name

end Schema

/-- The claims that meet an earlier claim on their name without sharing it, each with the first
one on that name; `held` are the first claims so far. -/
def conflictsAfter (held : List Claim) : List Claim → List (Claim × Claim)
  | [] => []
  | claim :: rest =>
    match held.find? (·.typeName == claim.typeName) with
    | none => conflictsAfter (claim :: held) rest
    | some first =>
      if first.claimant.sharesWith claim.claimant then conflictsAfter held rest
      else (first, claim) :: conflictsAfter held rest

/-- The claims that conflict with an earlier one. -/
def conflicts (claims : List Claim) : List (Claim × Claim) := conflictsAfter [] claims

end EntityModel
