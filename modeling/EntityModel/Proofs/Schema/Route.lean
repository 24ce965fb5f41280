import Mathlib.Data.Set.List
import EntityModel.Proofs.Schema.Reach

/-!
# Routes to references

A route goes through embedded fields, each in the shape of the one before, and ends at a reference.
Depth-first order, with the fields of each schema in order of name, is the lexicographic order of the
names along the routes: of two routes that part, the one with the smaller name comes first.

Results:
* `Frozen.links_ascending`: the references of a frozen schema are collected in this order.
* `HasRoute.eq_of_names_eq`: a route is told by its names.
* `Frozen.exists_routes`: each route of a frozen schema is collected once.
-/
namespace EntityModel

/-- The way to a reference: the embedded fields in front of it, and what it refers to. -/
structure Route where
  front : List Field
  reference : Field
  target : Schema

namespace Route

/-- The fields along the route. -/
def chain (route : Route) : List Field := route.front ++ [route.reference]

/-- The names along the route. -/
def names (route : Route) : List String := route.chain.map (·.name)

/-- The reference as it is collected. -/
def link (route : Route) : Link := ⟨route.names, route.target⟩

end Route

namespace Schema

/-- The route starts at the fields of the schema. -/
def HasRoute (schema : Schema) (route : Route) : Prop :=
  ∃ inner, schema.Embeds (fun _ => True) route.front inner ∧ route.reference ∈ inner.fields ∧
    route.reference.type = .reference route.target

namespace HasRoute

variable {schema : Schema} {route other : Route}

theorem leads (h : schema.HasRoute route) : schema.Leads route.chain route.target := by
  obtain ⟨inner, hfront, hf, ht⟩ := h
  exact hfront.leads.trans (.through hf (target?_of_reference ht) (.here _))

/-- Routes of the same names in a frozen schema are one route. -/
theorem eq_of_names_eq (h : schema.HasRoute route) (ho : schema.HasRoute other)
    (hs : schema.Frozen) (hn : other.names = route.names) : other = route := by
  obtain ⟨hchain, htarget⟩ := h.leads.eq_of_names_eq ho.leads hs hn
  obtain ⟨hfront, hlast⟩ := List.append_inj' hchain rfl
  obtain ⟨front, reference, target⟩ := route
  obtain ⟨front', reference', target'⟩ := other
  simp_all

end HasRoute

/-! ## Order -/

theorem mem_links_iff_route {schema : Schema} {link : Link} :
    link ∈ schema.links ↔ ∃ route, schema.HasRoute route ∧ route.link = link := by
  rw [mem_links]
  constructor
  · intro ⟨front, inner, field, hfront, hf, ht, hpath⟩
    refine ⟨⟨front, field, link.target⟩, ⟨inner, hfront, hf, ht⟩, ?_⟩
    rw [Route.link, Route.names, Route.chain, ← hpath]
  · rintro ⟨route, ⟨inner, hfront, hf, ht⟩, rfl⟩
    exact ⟨route.front, inner, route.reference, hfront, hf, ht, rfl⟩

theorem path_of_mem_fieldLinks {field : Field} {link : Link} (h : link ∈ fieldLinks field) :
    ∃ rest, link.path = field.name :: rest := by
  unfold fieldLinks at h
  split at h
  · obtain rfl := List.mem_singleton.1 h
    exact ⟨[], rfl⟩
  · obtain ⟨below, -, rfl⟩ := List.mem_map.1 h
    exact ⟨below.path, rfl⟩
  · cases h

/-- The references of a frozen schema are collected in strictly ascending order of path. -/
theorem Frozen.links_ascending {schema : Schema} (h : schema.Frozen) :
    schema.links.Pairwise fun a b => a.path < b.path := by
  induction schema using Schema.induct with
  | step schema ih =>
    rw [links_eq_flatMap, List.pairwise_flatMap]
    constructor
    · intro field hf
      unfold fieldLinks
      split
      · exact List.pairwise_singleton ..
      · next target ht =>
        have ht' := target?_of_embedded ht
        refine List.pairwise_map.2 ((ih field hf target ht' (h.target hf ht')).imp fun hlt => ?_)
        exact List.cons_lt_cons_iff.2 (.inr ⟨rfl, hlt⟩)
      · exact .nil
    · refine h.ascending.imp fun hlt link hl other ho => ?_
      obtain ⟨rest, hpath⟩ := path_of_mem_fieldLinks hl
      obtain ⟨rest', hpath'⟩ := path_of_mem_fieldLinks ho
      rw [hpath, hpath']
      exact List.cons_lt_cons_iff.2 (.inl hlt)

/-- The routes of a frozen schema can be listed in order, and its references are those at their
ends. -/
theorem Frozen.exists_routes {schema : Schema} (h : schema.Frozen) : ∃ routes : List Route,
    (∀ route, route ∈ routes ↔ schema.HasRoute route) ∧
      (routes.Pairwise fun a b => a.names < b.names) ∧
      schema.links = routes.map Route.link := by
  have hrange : schema.links ∈ Set.range
      (List.map fun route : { route // schema.HasRoute route } => route.val.link) := by
    rw [Set.range_list_map]
    intro link hl
    obtain ⟨route, hroute, rfl⟩ := mem_links_iff_route.1 hl
    exact ⟨⟨route, hroute⟩, rfl⟩
  obtain ⟨found, hfound⟩ := hrange
  have hlinks : schema.links = (found.map Subtype.val).map Route.link := by
    rw [← hfound, List.map_map]
    rfl
  refine ⟨found.map Subtype.val, fun route => ⟨?_, fun hroute => ?_⟩, ?_, hlinks⟩
  · intro hm
    obtain ⟨⟨_, hroute⟩, -, rfl⟩ := List.mem_map.1 hm
    exact hroute
  · have hl : route.link ∈ schema.links := mem_links_iff_route.2 ⟨route, hroute, rfl⟩
    rw [hlinks] at hl
    obtain ⟨other, hm, heq⟩ := List.mem_map.1 hl
    obtain ⟨⟨_, ho⟩, -, rfl⟩ := List.mem_map.1 hm
    rwa [← hroute.eq_of_names_eq ho h (congrArg Link.path heq)]
  · have := h.links_ascending
    rwa [hlinks, List.pairwise_map] at this

end Schema

end EntityModel
