import EntityModel.Proofs.IssueTree.Route

/-!
# Merging trees of issues

A merge goes down both trees at once, makes the levels that the first one lacks, and passes over
subtrees without issues. Under each key it is the merge of what stands there, so on every route the
issues of the second tree come to stand behind those of the first, and nothing else changes.

What is read does not make two trees equal, since a level without issues may be there or not. Merges in a
row are compared key by key.

Results:
* `get?_merge`, `child_merge`: a merge, key by key.
* `Ordered.merge`, `Ordered.mergeFor`: merging keeps the keys in order.
* `messagesAt_merge`, `merge_assoc`: what is read after a merge, and merges in a row.
* `merge_accounts`: a merge loses nothing and adds nothing, and the size of a tree counts its issues.
-/
namespace EntityModel.IssueTree

theorem eq_of_parts {tree other : IssueTree} (hm : tree.messages = other.messages)
    (hc : tree.children = other.children) : tree = other := by
  cases tree
  cases other
  cases hm
  cases hc
  rfl

/-! ## One subtree -/

theorem mergeAll_cons (tree below : IssueTree) (key : String) (rest : List (String × IssueTree)) :
    mergeAll tree ((key, below) :: rest) = mergeAll (tree.mergeFor key below) rest := by
  rw [mergeAll, mergeFor]

theorem merge_eq (tree other : IssueTree) : tree.merge other
    = mergeAll { tree with messages := tree.messages ++ other.messages } other.children := by
  cases other
  rw [merge]

theorem mergeAll_of_allEmpty (tree : IssueTree) {trees : List (String × IssueTree)}
    (h : allEmpty trees = true) : mergeAll tree trees = tree := by
  induction trees with
  | nil => rw [mergeAll]
  | cons entry rest ih =>
    obtain ⟨key, below⟩ := entry
    simp only [allEmpty, Bool.and_eq_true] at h
    rw [mergeAll_cons, mergeFor, if_pos h.1, ih h.2]

/-- Merging a tree without issues changes nothing, even if it has keys. -/
theorem merge_of_isEmpty (tree : IssueTree) {other : IssueTree} (h : other.isEmpty = true) :
    tree.merge other = tree := by
  rw [isEmpty_eq, Bool.and_eq_true, List.isEmpty_iff] at h
  have hsame : { tree with messages := tree.messages ++ other.messages } = tree :=
    eq_of_parts (by simp [h.1]) rfl
  rw [merge_eq, hsame, mergeAll_of_allEmpty tree h.2]

theorem messages_mergeFor (tree : IssueTree) (key : String) (below : IssueTree) :
    (tree.mergeFor key below).messages = tree.messages := by
  unfold mergeFor
  split <;> rfl

theorem get?_mergeFor_self (tree : IssueTree) (key : String) (below : IssueTree) :
    Keyed.get? key (tree.mergeFor key below).children =
      if below.isEmpty then Keyed.get? key tree.children else some ((tree.child key).merge below) := by
  unfold mergeFor
  split
  · rfl
  · exact Keyed.get?_insert_self ..

theorem get?_mergeFor_of_ne (tree : IssueTree) {key other : String} (h : other ≠ key)
    (below : IssueTree) : Keyed.get? other (tree.mergeFor key below).children
      = Keyed.get? other tree.children := by
  unfold mergeFor
  split
  · rfl
  · exact Keyed.get?_insert_of_ne h ..

theorem child_mergeFor_self (tree : IssueTree) (key : String) (below : IssueTree) :
    (tree.mergeFor key below).child key = (tree.child key).merge below := by
  rw [child, get?_mergeFor_self]
  split
  · next he => rw [merge_of_isEmpty _ he, child]
  · rfl

theorem child_mergeFor_of_ne (tree : IssueTree) {key other : String} (h : other ≠ key)
    (below : IssueTree) : (tree.mergeFor key below).child other = tree.child other := by
  rw [child, child, get?_mergeFor_of_ne tree h]

/-! ## Whole trees -/

theorem messages_mergeAll (tree : IssueTree) (trees : List (String × IssueTree)) :
    (mergeAll tree trees).messages = tree.messages := by
  induction trees generalizing tree with
  | nil => rw [mergeAll]
  | cons entry rest ih => rw [mergeAll_cons, ih, messages_mergeFor]

theorem messages_merge (tree other : IssueTree) :
    (tree.merge other).messages = tree.messages ++ other.messages := by
  rw [merge_eq, messages_mergeAll]

/-- Trees under different keys meet each its own part of the tree that they are merged into. -/
theorem get?_mergeAll (key : String) (tree : IssueTree) {trees : List (String × IssueTree)}
    (distinct : (Keyed.keys trees).Nodup) : Keyed.get? key (mergeAll tree trees).children =
      if ((Keyed.get? key trees).getD empty).isEmpty then Keyed.get? key tree.children
      else some ((tree.child key).merge ((Keyed.get? key trees).getD empty)) := by
  induction trees generalizing tree with
  | nil =>
    rw [mergeAll]
    rfl
  | cons entry rest ih =>
    obtain ⟨k, below⟩ := entry
    obtain ⟨hk, hrest⟩ := List.nodup_cons.1 distinct
    rw [mergeAll_cons, ih (tree.mergeFor k below) hrest]
    by_cases he : k = key
    · subst he
      have hnone : Keyed.get? k rest = none := Keyed.get?_eq_none hk
      have hempty : empty.isEmpty = true := rfl
      simp [hnone, hempty, get?_mergeFor_self, Keyed.get?]
    · have hne : key ≠ k := Ne.symm he
      simp [get?_mergeFor_of_ne tree hne, child_mergeFor_of_ne tree hne, Keyed.get?, he]

/-- What a merge leaves under a key. -/
theorem get?_merge (tree : IssueTree) {other : IssueTree} (h : other.Ordered) (key : String) :
    Keyed.get? key (tree.merge other).children =
      if (other.child key).isEmpty then Keyed.get? key tree.children
      else some ((tree.child key).merge (other.child key)) := by
  rw [merge_eq, get?_mergeAll key _ h.ascending.nodup]
  rfl

/-- Under each key the trees that stand there are merged. -/
theorem child_merge (tree : IssueTree) {other : IssueTree} (h : other.Ordered) (key : String) :
    (tree.merge other).child key = (tree.child key).merge (other.child key) := by
  rw [child, get?_merge tree h]
  split
  · next he => rw [merge_of_isEmpty _ he, child]
  · rfl

theorem Ordered.mergeAll {tree : IssueTree} (h : tree.Ordered) {trees : List (String × IssueTree)}
    (keeps : ∀ key below, (key, below) ∈ trees → ∀ {held : IssueTree}, held.Ordered →
      (held.merge below).Ordered) : (IssueTree.mergeAll tree trees).Ordered := by
  induction trees generalizing tree with
  | nil =>
    rw [IssueTree.mergeAll]
    exact h
  | cons entry rest ih =>
    obtain ⟨key, below⟩ := entry
    rw [mergeAll_cons]
    refine ih ?_ fun other found hm => keeps other found (List.mem_cons_of_mem _ hm)
    unfold mergeFor
    split
    · exact h
    · exact h.setChild key (keeps key below (List.mem_cons_self ..) (h.child key))

theorem Ordered.merge {tree other : IssueTree} (h : tree.Ordered) (ho : other.Ordered) :
    (tree.merge other).Ordered := by
  induction ho generalizing tree with
  | @intro other _ _ ih =>
    rw [merge_eq]
    refine Ordered.mergeAll ?_ fun key below hm held hheld => ih key below hm hheld
    cases h with
    | intro ascending below => exact .intro ascending below

theorem Ordered.mergeFor {tree below : IssueTree} (h : tree.Ordered) (key : String)
    (hb : below.Ordered) : (tree.mergeFor key below).Ordered := by
  unfold IssueTree.mergeFor
  split
  · exact h
  · exact h.setChild key ((h.child key).merge hb)

/-! ## Routes -/

/-- After a merge the messages of the second tree stand behind those of the first, on every route. -/
theorem messagesAt_merge (tree : IssueTree) {other : IssueTree} (h : other.Ordered)
    (route : List String) :
    (tree.merge other).messagesAt route = tree.messagesAt route ++ other.messagesAt route := by
  induction route generalizing tree other with
  | nil => exact messages_merge tree other
  | cons key route ih =>
    simp only [messagesAt]
    rw [child_merge tree h, ih (tree.child key) (h.child key)]

theorem messagesAt_mergeFor_self (tree : IssueTree) (key : String) {below : IssueTree}
    (h : below.Ordered) (route : List String) : (tree.mergeFor key below).messagesAt (key :: route)
      = tree.messagesAt (key :: route) ++ below.messagesAt route := by
  simp only [messagesAt]
  rw [child_mergeFor_self, messagesAt_merge _ h]

theorem messagesAt_mergeFor_of_ne (tree : IssueTree) {key : String} (below : IssueTree)
    {route : List String} (h : route.head? ≠ some key) :
    (tree.mergeFor key below).messagesAt route = tree.messagesAt route := by
  cases route with
  | nil => exact messages_mergeFor tree key below
  | cons other route =>
    have hne : other ≠ key := by simpa using h
    simp only [messagesAt]
    rw [child_mergeFor_of_ne tree hne]

/-- A merge is without issues only if the second tree is. -/
theorem isEmpty_of_merge {tree other : IssueTree} (h : other.Ordered)
    (he : (tree.merge other).isEmpty = true) : other.isEmpty = true := by
  refine isEmpty_of_messagesAt h fun route => ?_
  have hroute := messagesAt_of_isEmpty he route
  rw [messagesAt_merge tree h, List.append_eq_nil_iff] at hroute
  exact hroute.2

/-- Of three trees it does not matter which two are merged first. -/
theorem merge_assoc {a b c : IssueTree} (ha : a.Ordered) (hb : b.Ordered) (hc : c.Ordered) :
    (a.merge b).merge c = a.merge (b.merge c) := by
  induction hc generalizing a b with
  | @intro c ascending below ih =>
    have hc : c.Ordered := .intro ascending below
    have hmessages : ((a.merge b).merge c).messages = (a.merge (b.merge c)).messages := by
      simp only [messages_merge, List.append_assoc]
    have hchildren : ((a.merge b).merge c).children = (a.merge (b.merge c)).children := by
      refine Keyed.Ascending.ext ((ha.merge hb).merge hc).ascending (ha.merge (hb.merge hc)).ascending
        fun key => ?_
      rw [get?_merge _ hc, get?_merge a (hb.merge hc), child_merge a hb, child_merge b hc]
      by_cases he : (c.child key).isEmpty = true
      · -- nothing comes from the third tree, so the first two are merged alone
        rw [if_pos he, merge_of_isEmpty _ he, get?_merge a hb]
      · have hm : (key, c.child key) ∈ c.children :=
          (c.child_eq_empty_or_mem key).resolve_left fun h => he (h ▸ rfl)
        have hne : ¬ ((b.child key).merge (c.child key)).isEmpty = true :=
          fun h => he (isEmpty_of_merge (hc.child key) h)
        rw [if_neg he, if_neg hne, ih key _ hm (ha.child key) (hb.child key)]
    exact eq_of_parts hmessages hchildren

/-- **Merging.** On every route the messages after a merge are those of the first tree and then those of
the second; merged under a key, the second tree adds to the routes through that key and to no other.
Merges in a row may be grouped either way. A tree has as many lines as issues, which is also the number
of messages on all its routes, and a check passes exactly when that is zero. -/
theorem merge_accounts {a b : IssueTree} (ha : a.Ordered) (hb : b.Ordered) :
    (∀ route, (a.merge b).messagesAt route = a.messagesAt route ++ b.messagesAt route) ∧
    (∀ key route, (a.mergeFor key b).messagesAt (key :: route)
      = a.messagesAt (key :: route) ++ b.messagesAt route) ∧
    (∀ key route, route.head? ≠ some key →
      (a.mergeFor key b).messagesAt route = a.messagesAt route) ∧
    (∀ c : IssueTree, c.Ordered → (a.merge b).merge c = a.merge (b.merge c)) ∧
    a.size = a.lines.length ∧
    {route | a.messagesAt route ≠ []}.Finite ∧
    a.size = ∑ᶠ route, (a.messagesAt route).length ∧
    a.result = if a.size = 0 then .ok () else .error a := by
  refine ⟨messagesAt_merge a hb, fun key route => messagesAt_mergeFor_self a key hb route, ?_, ?_,
    a.length_lines.symm, a.finite_messagesAt, size_eq_finsum ha, a.result_eq⟩
  · intro key route hroute
    exact messagesAt_mergeFor_of_ne a b hroute
  · intro c hc
    exact merge_assoc ha hb hc

/-- Issues on two levels, and a key with nothing below it. -/
def sample : IssueTree := ⟨["no fields"], [("steps", ⟨["bad flags"], []⟩), ("tags", empty)]⟩

/-- Issues under a key of the sample and deeper, and a level with a key but without an issue. -/
def deeperSample : IssueTree :=
  ⟨[], [("steps", ⟨["not unique"], [("assignee", ⟨["unknown target"], []⟩)]⟩),
    ("tags", ⟨[], [("label", empty)]⟩)]⟩

theorem sample_ordered : sample.Ordered := by
  refine .intro (by decide) ?_
  simp only [sample, List.mem_cons, Prod.mk.injEq, List.not_mem_nil, or_false]
  rintro key below (⟨-, rfl⟩ | ⟨-, rfl⟩)
  · exact ordered_leaf _
  · exact ordered_leaf _

theorem deeperSample_ordered : deeperSample.Ordered := by
  have single (messages : List String) (key : String) (below : List String) :
      Ordered ⟨messages, [(key, ⟨below, []⟩)]⟩ := by
    refine .intro (List.pairwise_singleton ..) ?_
    simp only [List.mem_singleton, Prod.mk.injEq]
    rintro _ _ ⟨-, rfl⟩
    exact ordered_leaf below
  refine .intro (by decide) ?_
  simp only [deeperSample, List.mem_cons, Prod.mk.injEq, List.not_mem_nil, or_false]
  rintro key below (⟨-, rfl⟩ | ⟨-, rfl⟩)
  · exact single ..
  · exact single ..

/-- The samples merged: messages under one key come in the order of the trees, the level without
an issue adds nothing, and merging under a key leaves the other keys alone. -/
theorem merge_accounts_sample : sample.Ordered ∧ deeperSample.Ordered ∧
    (sample.merge deeperSample).messagesAt ["steps"] = ["bad flags", "not unique"] ∧
    (sample.mergeFor "steps" deeperSample).messagesAt ["steps", "steps", "assignee"]
      = ["unknown target"] ∧
    (sample.mergeFor "steps" deeperSample).messagesAt [] = ["no fields"] ∧
    (sample.merge deeperSample).merge sample = sample.merge (deeperSample.merge sample) ∧
    2 = ∑ᶠ route, (sample.messagesAt route).length ∧ sample.result = .error sample := by
  obtain ⟨hmerge, hself, hother, hassoc, -, -, hsum, hresult⟩ :=
    merge_accounts sample_ordered deeperSample_ordered
  exact ⟨sample_ordered, deeperSample_ordered, hmerge ["steps"], hself "steps" ["steps", "assignee"],
    hother "steps" [] (by simp), hassoc sample sample_ordered, hsum, hresult⟩

end EntityModel.IssueTree
