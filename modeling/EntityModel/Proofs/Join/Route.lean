import Mathlib.Data.List.Forall2
import Mathlib.Order.Bounds.Defs
import EntityModel.Proofs.Join
import EntityModel.Proofs.Name
import EntityModel.Proofs.Schema.Route

/-!
# Plans and routes

A plan has a join for each route, in the order of the routes. Dots separate the names along a route
and stand in none of them, so no two joins of a plan have one path. The joins of the target hang
below, and the depth of a join counts the references on the longest way that starts with it.

Results:
* `Join.dotted_inj`: names are read off their dotted path.
* `joinsOf_within`: a scope is put in front of what is found without one.
* `isGreatest_depthOf`: the depth of a plan is the greatest number of references on a chain.
* `joins_routes`: a plan in full.
-/
namespace EntityModel

namespace Join

/-! ## Dotted paths -/

/-- Names without dots are read off their dotted path. -/
theorem dotted_inj {names other : List String} (hn : names ≠ []) (ho : other ≠ [])
    (hnames : ∀ name ∈ names, '.' ∉ name.toList) (hother : ∀ name ∈ other, '.' ∉ name.toList)
    (h : ".".intercalate names = ".".intercalate other) : names = other := by
  have hread : ∀ {names : List String}, names ≠ [] → (∀ name ∈ names, '.' ∉ name.toList) →
      (".".intercalate names).toList.splitOn '.' = names.map String.toList := by
    intro names hn hnames
    rw [String.toList_intercalate]
    exact List.splitOn_intercalate '.' (by simpa using hnames) (by simpa using hn)
  have hlists : names.map String.toList = other.map String.toList := by
    rw [← hread hn hnames, h, hread ho hother]
  exact List.map_injective_iff.2 (fun _ _ => String.toList_inj.1) hlists

/-! ## Depth -/

theorem depth_ofReference (path : String) (nested : List Join) :
    (ofReference path nested).depth = 1 + depthOf nested := by
  cases nested <;> simp [ofReference, depth, depthOf]

theorem depth_le_depthOf {join : Join} {joins : List Join} (h : join ∈ joins) :
    join.depth ≤ depthOf joins := by
  induction joins with
  | nil => cases h
  | cons first rest ih =>
    rw [depthOf]
    rcases List.mem_cons.1 h with rfl | h
    · exact Nat.le_max_left ..
    · exact Nat.le_trans (ih h) (Nat.le_max_right ..)

theorem exists_depth_eq {joins : List Join} (h : joins ≠ []) :
    ∃ join ∈ joins, join.depth = depthOf joins := by
  induction joins with
  | nil => exact absurd rfl h
  | cons first rest ih =>
    have hfirst := first.depth_pos
    by_cases hle : depthOf rest ≤ first.depth
    · exact ⟨first, List.mem_cons_self .., by rw [depthOf, Nat.max_eq_left hle]⟩
    · have hrest : rest ≠ [] := by
        rintro rfl
        simp [depthOf] at hle
      obtain ⟨join, hj, hd⟩ := ih hrest
      exact ⟨join, List.mem_cons_of_mem _ hj, by rw [hd, depthOf]; omega⟩

end Join

namespace Schema

/-- The number of references on a chain. -/
def references (chain : List Field) : Nat := chain.countP Field.isReference

theorem references_cons_reference {field : Field} {target : Schema}
    (h : field.type = .reference target) (chain : List Field) :
    references (field :: chain) = 1 + references chain := by
  simp [references, Field.isReference, h, Nat.add_comm]

theorem references_cons_embedded {field : Field} {target : Schema}
    (h : field.type = .embedded target) (chain : List Field) :
    references (field :: chain) = references chain := by
  simp [references, Field.isReference, h]

/-- Embedded fields in front are not counted. -/
theorem Embeds.references_append {schema inner : Schema} {front : List Field} {p : Field → Prop}
    (h : schema.Embeds p front inner) (chain : List Field) :
    references (front ++ chain) = references chain := by
  induction h with
  | here => rfl
  | under _ _ ht _ ih => rw [List.cons_append, references_cons_embedded ht, ih]

/-- A chain has no more references than its plan is deep. -/
theorem Leads.references_le {schema inner : Schema} {chain : List Field}
    (h : schema.Leads chain inner) : references chain ≤ Join.depthOf schema.joins := by
  refine h.cut_induct (motive := fun root _ chain _ =>
    references chain ≤ Join.depthOf root.joins) ?_ ?_ ?_ (.here schema)
  · intro root front inner _
    exact Nat.zero_le _
  · intro root front schema field target rest inner _ _ ht ih
    rwa [references_cons_embedded ht]
  · intro root front schema field target rest inner hfront hf ht ih
    have hjoin := Join.depth_le_depthOf (mem_joins hfront hf ht)
    rw [Join.depth_ofReference] at hjoin
    rw [references_cons_reference ht]
    omega

/-- Some chain has as many references as the plan is deep. -/
theorem exists_references_eq (schema : Schema) : ∃ chain inner, schema.Leads chain inner ∧
    references chain = Join.depthOf schema.joins := by
  induction schema using Schema.induct_leads with
  | step schema ih =>
    by_cases hne : schema.joins = []
    · exact ⟨[], schema, .here schema, by rw [hne]; rfl⟩
    · -- the deepest join stands for a route, and behind its target the chain goes on
      obtain ⟨join, hj, hd⟩ := Join.exists_depth_eq hne
      rw [joins_eq_links] at hj
      obtain ⟨link, hl, rfl⟩ := List.mem_map.1 hj
      obtain ⟨route, hroute, rfl⟩ := mem_links_iff_route.1 hl
      obtain ⟨chain, last, hchain, hcount⟩ := ih _ _ (by simp [Route.chain]) hroute.leads
      refine ⟨route.chain ++ chain, last, hroute.leads.trans hchain, ?_⟩
      obtain ⟨inner, hfront, -, ht⟩ := hroute
      rw [Route.chain, List.append_assoc, hfront.references_append, List.singleton_append,
        references_cons_reference ht, hcount, ← hd, Join.depth_ofReference]
      rfl

/-- The depth of a plan is the greatest number of references on a chain. -/
theorem isGreatest_depthOf (schema : Schema) :
    IsGreatest { n | ∃ chain inner, schema.Leads chain inner ∧ references chain = n }
      (Join.depthOf schema.joins) := by
  constructor
  · exact exists_references_eq schema
  · rintro _ ⟨chain, inner, hl, rfl⟩
    exact hl.references_le

/-! ## Scopes -/

/-- A scope is put in front of what is found without one. -/
theorem joinsOf_within (fields : List Field) (scope : Option String) :
    joinsOf fields scope = (joinsOf fields none).map (Join.within scope) := by
  induction fields with
  | nil => rfl
  | cons field rest ih =>
    obtain ⟨name, type, flags, description, owner⟩ := field
    cases type with
    | scalar kind => simpa [joinsOf] using ih
    | reference target => simp [joinsOf, ih, Join.within_ofReference, Join.qualify]
    | embedded target =>
      rw [joinsOf, joinsOf, List.map_append, List.map_map, ← ih]
      rfl

/-- Fields under an embedded parent have its name in front of every path; another parent changes
nothing. -/
theorem joinsUnder_some (fields : List Field) (parent : Field) :
    joinsUnder fields (some parent) =
      if parent.isEmbedded then
        (joinsUnder fields none).map fun join =>
          { join with path := parent.name ++ "." ++ join.path }
      else joinsUnder fields none := by
  rw [joinsUnder, joinsUnder, Option.filter_some]
  split
  · exact joinsOf_within fields (some parent.name)
  · rfl

end Schema

/-! ## Plans in full -/

/-- The join is made for the route: it has the dotted names for its path and carries the plan of the
target if there is any, and is as deep as a way that starts with the reference has references. -/
structure Join.Follows (join : Join) (route : Route) : Prop where
  path : join.path = ".".intercalate route.names
  last : route.target.joins = [] → join.nested = none
  nested : route.target.joins ≠ [] → join.nested = some route.target.joins
  depth : IsGreatest { n | ∃ chain inner, route.target.Leads chain inner ∧
    Schema.references (route.reference :: chain) = n } join.depth

namespace Schema

theorem HasRoute.follows {schema : Schema} {route : Route} (h : schema.HasRoute route) :
    (Join.ofReference route.link.dotted route.link.target.joins).Follows route where
  path := rfl
  last hl := by simp [Join.ofReference, Route.link, hl]
  nested hl := Join.nested_ofReference hl
  depth := by
    obtain ⟨inner, -, -, ht⟩ := h
    obtain ⟨⟨chain, last, hl, hcount⟩, hle⟩ := route.target.isGreatest_depthOf
    rw [Join.depth_ofReference]
    constructor
    · exact ⟨chain, last, hl, by rw [references_cons_reference ht, hcount]; rfl⟩
    · rintro _ ⟨other, inner, hother, rfl⟩
      rw [references_cons_reference ht]
      exact Nat.add_le_add_left hother.references_le 1

/-- The names along a route of a frozen schema have no dots. -/
theorem HasRoute.dotless {schema : Schema} {route : Route} (h : schema.HasRoute route)
    (hs : schema.Frozen) : ∀ name ∈ route.names, '.' ∉ name.toList := by
  intro name hn
  obtain ⟨field, hf, rfl⟩ := List.mem_map.1 hn
  exact Name.dot_not_mem (h.leads.fieldFault hs field hf)

/-- No two joins of a plan have one path. -/
theorem Frozen.joins_paths_nodup {schema : Schema} (h : schema.Frozen) :
    (schema.joins.map (·.path)).Nodup := by
  obtain ⟨routes, hroutes, hordered, hlinks⟩ := h.exists_routes
  rw [joins_eq_links, hlinks, List.map_map, List.map_map]
  refine List.pairwise_map.2 (hordered.imp_of_mem fun {a b} ha hb hlt heq => ?_)
  have hnames : a.names = b.names := Join.dotted_inj (by simp [Route.names, Route.chain])
    (by simp [Route.names, Route.chain]) (((hroutes a).1 ha).dotless h)
    (((hroutes b).1 hb).dotless h) heq
  exact List.lt_irrefl _ (hnames ▸ hlt)

/-- **Plans.** The routes to the references of a frozen schema stand in the order in which a
depth-first walk of the ascending fields meets them, and its plan has one join for each of them, in
this order. No two joins of one level have the same path. An embedded parent stands in front of every
path of its fields, and any other parent is left out. -/
theorem joins_routes {schema : Schema} (frozen : schema.Frozen) :
    (∃ routes : List Route, (∀ route, route ∈ routes ↔ schema.HasRoute route) ∧
      (routes.Pairwise fun a b => a.names < b.names) ∧
      List.Forall₂ Join.Follows schema.joins routes) ∧
    (∀ chain inner, schema.Leads chain inner → (inner.joins.map (·.path)).Nodup) ∧
    ∀ fields parent, joinsUnder fields (some parent) =
      if parent.isEmbedded then
        (joinsUnder fields none).map fun join =>
          { join with path := parent.name ++ "." ++ join.path }
      else joinsUnder fields none := by
  obtain ⟨routes, hroutes, hordered, hlinks⟩ := frozen.exists_routes
  refine ⟨⟨routes, hroutes, hordered, ?_⟩, ?_, joinsUnder_some⟩
  · rw [joins_eq_links, hlinks, List.map_map, List.forall₂_map_left_iff, List.forall₂_same]
    exact fun route hm => ((hroutes route).1 hm).follows
  · exact fun chain inner hl => (hl.frozen frozen).joins_paths_nodup

/-- The plan of a report has one join, for the way through the remarks to the workflows that these are
about. It is two references deep, since a workflow refers to a category. -/
theorem joins_routes_sample : ∃ join route, Sample.report.joins = [join] ∧
    join.path = "remarks.about" ∧ join.depth = 2 ∧ Sample.report.HasRoute route ∧
    join.Follows route := by
  obtain ⟨⟨routes, hroutes, -, hfollows⟩, -⟩ := joins_routes Sample.report_frozen
  have hjoins : Sample.report.joins = [⟨"remarks.about", some Sample.workflow.joins⟩] := rfl
  rw [hjoins] at hfollows
  cases hfollows with
  | cons hfirst hrest =>
    cases hrest
    exact ⟨_, _, hjoins, rfl, rfl, (hroutes _).1 (List.mem_cons_self ..), hfirst⟩

end Schema

end EntityModel
