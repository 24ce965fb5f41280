import Mathlib.Algebra.BigOperators.Finprod
import EntityModel.Proofs.IssueTree

/-!
# What a tree of issues holds

A tree is read by routes, and every other view of it is told by what is read: it is empty when no
route has a message, its lines are the messages of one route after the other, and its size is their
number. The keys of a level ascend, so a route leads to one place only.

Results:
* `Ordered.addFor`: filing keeps the keys in order.
* `isEmpty_of_messagesAt`, `messagesAt_of_isEmpty`: no issues means no message on any route.
* `linesAt_eq_flatMap`: the lines are the messages of all routes, each behind its route.
* `size_eq_finsum`, `length_lines`, `result_eq`: the size is the number of messages on all routes, and of
  lines, and a check passes when it is zero.
-/
namespace EntityModel.IssueTree

/-! ## Keys in order -/

/-- The keys ascend at every level. -/
inductive Ordered : IssueTree → Prop
  | intro {tree : IssueTree} : Keyed.Ascending tree.children →
      (∀ key below, (key, below) ∈ tree.children → Ordered below) → Ordered tree

theorem Ordered.ascending {tree : IssueTree} : tree.Ordered → Keyed.Ascending tree.children
  | .intro ascending _ => ascending

theorem ordered_leaf (messages : List String) : Ordered ⟨messages, []⟩ :=
  .intro List.Pairwise.nil fun _ _ h => nomatch h

theorem child_eq_of_mem {tree below : IssueTree} (h : tree.Ordered) {key : String}
    (hm : (key, below) ∈ tree.children) : tree.child key = below := by
  rw [child, (Keyed.get?_eq_some_iff h.ascending).2 hm, Option.getD_some]

theorem child_eq_empty_or_mem (tree : IssueTree) (key : String) :
    tree.child key = empty ∨ (key, tree.child key) ∈ tree.children := by
  unfold child
  cases hget : Keyed.get? key tree.children with
  | none => exact .inl rfl
  | some below => exact .inr (Keyed.mem_of_get? hget)

theorem Ordered.child {tree : IssueTree} (h : tree.Ordered) (key : String) :
    (tree.child key).Ordered := by
  cases h with
  | intro _ below =>
    rcases tree.child_eq_empty_or_mem key with he | hm
    · exact he ▸ ordered_leaf []
    · exact below key _ hm

theorem Ordered.add {tree : IssueTree} (h : tree.Ordered) (message : String) :
    (tree.add message).Ordered := by
  cases h with
  | intro ascending below => exact .intro ascending below

theorem Ordered.setChild {tree below : IssueTree} (h : tree.Ordered) (key : String)
    (hb : below.Ordered) : (tree.setChild key below).Ordered := by
  cases h with
  | intro ascending others =>
    refine .intro (ascending.insert key below) fun other found hm => ?_
    rcases Keyed.mem_insert hm with he | hm
    · cases he
      exact hb
    · exact others other found hm

theorem Ordered.addFor {tree : IssueTree} (h : tree.Ordered) (key message : String) :
    (tree.addFor key message).Ordered :=
  h.setChild key ((h.child key).add message)

/-! ## No issues -/

theorem allEmpty_iff {trees : List (String × IssueTree)} :
    allEmpty trees = true ↔ ∀ entry ∈ trees, entry.2.isEmpty = true := by
  induction trees with
  | nil => simp [allEmpty]
  | cons entry rest ih =>
    obtain ⟨key, tree⟩ := entry
    simp [allEmpty, ih]

theorem isEmpty_child {tree : IssueTree} (h : tree.isEmpty = true) (key : String) :
    (tree.child key).isEmpty = true := by
  rw [isEmpty_eq, Bool.and_eq_true, allEmpty_iff] at h
  rcases tree.child_eq_empty_or_mem key with he | hm
  · rw [he]
    rfl
  · exact h.2 _ hm

theorem messagesAt_of_isEmpty {tree : IssueTree} (h : tree.isEmpty = true) (route : List String) :
    tree.messagesAt route = [] := by
  induction route generalizing tree with
  | nil =>
    rw [isEmpty_eq, Bool.and_eq_true, List.isEmpty_iff] at h
    exact h.1
  | cons key route ih =>
    rw [messagesAt]
    exact ih (isEmpty_child h key)

/-- A tree without a message on any route is without issues. -/
theorem isEmpty_of_messagesAt {tree : IssueTree} (h : tree.Ordered)
    (none : ∀ route, tree.messagesAt route = []) : tree.isEmpty = true := by
  induction h with
  | @intro tree ascending below ih =>
    have ordered : tree.Ordered := .intro ascending below
    rw [isEmpty_eq, Bool.and_eq_true, List.isEmpty_iff, allEmpty_iff]
    refine ⟨none [], fun entry hm => ih entry.1 entry.2 hm fun route => ?_⟩
    rw [← child_eq_of_mem ordered hm]
    exact none (entry.1 :: route)

/-! ## Routes -/

mutual

/-- The routes to all levels of a tree. -/
def routes : IssueTree → List (List String)
  | ⟨_, children⟩ => [] :: routesBelow children
termination_by structural tree => tree

/-- The routes that lead through the keys of trees. -/
def routesBelow : List (String × IssueTree) → List (List String)
  | [] => []
  | (key, tree) :: rest => tree.routes.map (key :: ·) ++ routesBelow rest
termination_by structural trees => trees

end

theorem routes_eq (tree : IssueTree) : tree.routes = [] :: routesBelow tree.children := by
  cases tree
  rw [routes]

theorem mem_routesBelow {trees : List (String × IssueTree)} {route : List String} :
    route ∈ routesBelow trees ↔
      ∃ key below, (key, below) ∈ trees ∧ ∃ rest ∈ below.routes, route = key :: rest := by
  induction trees with
  | nil => simp [routesBelow]
  | cons entry rest ih =>
    obtain ⟨key, below⟩ := entry
    simp only [routesBelow, List.mem_append, List.mem_map, ih, List.mem_cons]
    constructor
    · rintro (⟨route, hr, rfl⟩ | ⟨other, tree, hm, hroute⟩)
      · exact ⟨key, below, .inl rfl, route, hr, rfl⟩
      · exact ⟨other, tree, .inr hm, hroute⟩
    · rintro ⟨other, tree, he | hm, route, hr, rfl⟩
      · cases he
        exact .inl ⟨route, hr, rfl⟩
      · exact .inr ⟨other, tree, hm, route, hr, rfl⟩

theorem nodup_routesBelow {trees : List (String × IssueTree)} (distinct : (Keyed.keys trees).Nodup)
    (below : ∀ entry ∈ trees, entry.2.routes.Nodup) : (routesBelow trees).Nodup := by
  induction trees with
  | nil => exact List.nodup_nil
  | cons entry rest ih =>
    obtain ⟨key, tree⟩ := entry
    obtain ⟨hkey, hrest⟩ := List.nodup_cons.1 distinct
    rw [routesBelow, List.nodup_append]
    refine ⟨(below _ (List.mem_cons_self ..)).map (List.cons_injective),
      ih hrest fun other ho => below other (List.mem_cons_of_mem _ ho), ?_⟩
    rintro _ hfirst _ hother rfl
    obtain ⟨route, -, rfl⟩ := List.mem_map.1 hfirst
    obtain ⟨other, found, hm, _, -, he⟩ := mem_routesBelow.1 hother
    cases he
    exact hkey (List.mem_map.2 ⟨_, hm, rfl⟩)

/-- No two levels have the same route. -/
theorem Ordered.nodup_routes {tree : IssueTree} (h : tree.Ordered) : tree.routes.Nodup := by
  induction h with
  | @intro tree ascending _ ih =>
    rw [routes_eq, List.nodup_cons]
    refine ⟨fun hnil => ?_, nodup_routesBelow ascending.nodup fun entry hm => ih _ _ hm⟩
    obtain ⟨_, _, _, _, _, he⟩ := mem_routesBelow.1 hnil
    cases he

/-- A message is found on the routes of a tree only. -/
theorem mem_routes_of_messagesAt {tree : IssueTree} {route : List String}
    (h : tree.messagesAt route ≠ []) : route ∈ tree.routes := by
  induction route generalizing tree with
  | nil =>
    rw [routes_eq]
    exact List.mem_cons_self ..
  | cons key route ih =>
    rw [messagesAt] at h
    rw [routes_eq]
    refine List.mem_cons_of_mem _ (mem_routesBelow.2 ⟨key, tree.child key, ?_, route, ih h, rfl⟩)
    refine (tree.child_eq_empty_or_mem key).resolve_left fun he => h ?_
    rw [he]
    exact messagesAt_of_isEmpty rfl route

/-! ## Lines -/

/-- The dotted route that a route leads to from another one. -/
def dottedFrom (start : Option String) (route : List String) : Option String :=
  route.foldl (fun dotted key => some (extendRoute dotted key)) start

/-- The lines of the messages on a route. -/
def linesOn (tree : IssueTree) (start : Option String) (route : List String) : List String :=
  (tree.messagesAt route).map (line (dottedFrom start route))

theorem linesOn_cons {tree below : IssueTree} {key : String} (h : tree.child key = below)
    (start : Option String) (route : List String) :
    tree.linesOn start (key :: route) = below.linesOn (some (extendRoute start key)) route := by
  rw [linesOn, linesOn, messagesAt, h]
  rfl

theorem linesBelow_eq_flatMap {tree : IssueTree} {trees : List (String × IssueTree)}
    (found : ∀ key below, (key, below) ∈ trees → tree.child key = below)
    (below : ∀ entry ∈ trees, ∀ start,
      entry.2.linesAt start = entry.2.routes.flatMap (entry.2.linesOn start))
    (start : Option String) :
    linesBelow start trees = (routesBelow trees).flatMap (tree.linesOn start) := by
  induction trees with
  | nil => rfl
  | cons entry rest ih =>
    obtain ⟨key, held⟩ := entry
    have hkey : tree.child key = held := found key held (List.mem_cons_self ..)
    have hhead := below (key, held) (List.mem_cons_self ..) (some (extendRoute start key))
    have hrest := ih (fun other found' hm => found other found' (List.mem_cons_of_mem _ hm))
      fun other hm => below other (List.mem_cons_of_mem _ hm)
    rw [linesBelow, routesBelow, List.flatMap_append, hhead, hrest, List.flatMap_map]
    simp only [linesOn_cons hkey]

/-- The lines are the messages of all routes, each behind its route. -/
theorem linesAt_eq_flatMap {tree : IssueTree} (h : tree.Ordered) (start : Option String) :
    tree.linesAt start = tree.routes.flatMap (tree.linesOn start) := by
  induction h generalizing start with
  | @intro tree ascending below ih =>
    have ordered : tree.Ordered := .intro ascending below
    have hbelow := linesBelow_eq_flatMap (fun _ _ hm => child_eq_of_mem ordered hm)
      (fun entry hm => ih entry.1 entry.2 hm) start
    rw [routes_eq, List.flatMap_cons, ← hbelow]
    cases tree
    rw [linesAt]
    rfl

/-! ## Sizes -/

mutual

theorem length_linesAt (route : Option String) : (tree : IssueTree) →
    (tree.linesAt route).length = tree.size
  | ⟨messages, children⟩ => by
    rw [linesAt, size, List.length_append, List.length_map, length_linesBelow route children]

theorem length_linesBelow (route : Option String) : (trees : List (String × IssueTree)) →
    (linesBelow route trees).length = sizeAll trees
  | [] => rfl
  | (key, tree) :: rest => by
    rw [linesBelow, sizeAll, List.length_append, length_linesAt _ tree, length_linesBelow route rest]

end

theorem length_lines (tree : IssueTree) : tree.lines.length = tree.size := length_linesAt none tree

mutual

theorem isEmpty_iff_size : (tree : IssueTree) → (tree.isEmpty = true ↔ tree.size = 0)
  | ⟨messages, children⟩ => by
    rw [isEmpty, size, Bool.and_eq_true, List.isEmpty_iff, allEmpty_iff_sizeAll children,
      Nat.add_eq_zero_iff, List.length_eq_zero_iff]

theorem allEmpty_iff_sizeAll : (trees : List (String × IssueTree)) →
    (allEmpty trees = true ↔ sizeAll trees = 0)
  | [] => by simp [allEmpty, sizeAll]
  | (key, tree) :: rest => by
    rw [allEmpty, sizeAll, Bool.and_eq_true, isEmpty_iff_size tree, allEmpty_iff_sizeAll rest,
      Nat.add_eq_zero_iff]

end

/-- A check passes when the tree counts no issue, and gives the whole tree back otherwise. -/
theorem result_eq (tree : IssueTree) :
    tree.result = if tree.size = 0 then .ok () else .error tree := by
  rw [result]
  simp only [isEmpty_iff_size]

theorem finite_messagesAt (tree : IssueTree) : {route | tree.messagesAt route ≠ []}.Finite :=
  (List.finite_toSet tree.routes).subset fun _ h => mem_routes_of_messagesAt h

/-- The size of a tree is the number of messages on all routes. -/
theorem size_eq_finsum {tree : IssueTree} (h : tree.Ordered) :
    tree.size = ∑ᶠ route, (tree.messagesAt route).length := by
  have hsupport : (Function.support fun route => (tree.messagesAt route).length)
      ⊆ (tree.routes.toFinset : Set (List String)) := by
    intro route hroute
    have hne : tree.messagesAt route ≠ [] := fun he => hroute (by simp [he])
    simpa using mem_routes_of_messagesAt hne
  have hlines : tree.lines = tree.routes.flatMap (tree.linesOn none) := linesAt_eq_flatMap h none
  have hlength (route : List String) :
      (tree.linesOn none route).length = (tree.messagesAt route).length := List.length_map ..
  calc tree.size
      = tree.lines.length := (length_lines tree).symm
    _ = (tree.routes.map fun route => (tree.messagesAt route).length).sum := by
        rw [hlines, List.length_flatMap]
        simp only [hlength]
    _ = ∑ route ∈ tree.routes.toFinset, (tree.messagesAt route).length :=
        (List.sum_toFinset _ h.nodup_routes).symm
    _ = ∑ᶠ route, (tree.messagesAt route).length :=
        (finsum_eq_sum_of_support_subset _ hsupport).symm

end EntityModel.IssueTree
