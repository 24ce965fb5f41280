import Mathlib.Data.List.Nodup
import EntityModel.Proofs.Keyed
import EntityModel.Schema.Check

/-!
# Trees without issues

A check files what it finds and passes when it filed nothing. Whatever was filed stays, so a tree
is empty at the end exactly when every list of messages on the way was.

Results:
* `isEmpty_addAllFor`: filing messages leaves a tree empty exactly when there are none.
* `isEmpty_foldl_addAllFor`: the same for one list of messages after the other.
* `foldl_addAllFor_eq`, `foldl_addAllFor_empty`: what is in a tree when every key is filed under once.
-/
namespace EntityModel.IssueTree

theorem isEmpty_eq (tree : IssueTree) :
    tree.isEmpty = (tree.messages.isEmpty && allEmpty tree.children) := by
  cases tree
  rw [isEmpty]

theorem allEmpty_insert {key : String} {below : IssueTree} (h : below.isEmpty = false)
    (children : List (String × IssueTree)) :
    allEmpty (Keyed.insert key below children) = false := by
  induction children with
  | nil => simp [Keyed.insert, allEmpty, h]
  | cons entry rest ih =>
    obtain ⟨k, tree⟩ := entry
    simp only [Keyed.insert]
    split
    · simp [allEmpty, h]
    · split
      · simp [allEmpty, h]
      · simp [allEmpty, ih]

theorem isEmpty_addFor (tree : IssueTree) (key message : String) :
    (tree.addFor key message).isEmpty = false := by
  have hadd : ((tree.child key).add message).isEmpty = false := by
    rw [isEmpty_eq]; simp [add]
  rw [addFor, setChild, isEmpty_eq, allEmpty_insert hadd, Bool.and_false]

theorem isEmpty_addAllFor (tree : IssueTree) (key : String) (messages : List String) :
    (tree.addAllFor key messages).isEmpty = (tree.isEmpty && messages.isEmpty) := by
  induction messages generalizing tree with
  | nil => simp [addAllFor]
  | cons message rest ih =>
    have hstep : tree.addAllFor key (message :: rest)
        = (tree.addFor key message).addAllFor key rest := rfl
    rw [hstep, ih, isEmpty_addFor]
    simp

theorem isEmpty_foldl_addAllFor {α : Type} (key : α → String) (messages : α → List String)
    (items : List α) (tree : IssueTree) :
    (items.foldl (fun tree item => tree.addAllFor (key item) (messages item)) tree).isEmpty = true
      ↔ tree.isEmpty = true ∧ ∀ item ∈ items, messages item = [] := by
  induction items generalizing tree with
  | nil => simp
  | cons item rest ih =>
    rw [List.foldl_cons, ih, isEmpty_addAllFor]
    simp [and_assoc]

/-! ## What was filed -/

@[simp] theorem child_setChild_self (tree : IssueTree) (key : String) (below : IssueTree) :
    (tree.setChild key below).child key = below := by
  simp [child, setChild, Keyed.get?_insert_self]

theorem setChild_setChild (tree : IssueTree) (key : String) (first second : IssueTree) :
    (tree.setChild key first).setChild key second = tree.setChild key second := by
  simp [setChild, Keyed.insert_insert]

/-- Messages filed under a key stand behind those that are there. -/
theorem addAllFor_eq (tree : IssueTree) (key : String) {messages : List String}
    (h : messages ≠ []) : tree.addAllFor key messages = tree.setChild key
      { tree.child key with messages := (tree.child key).messages ++ messages } := by
  induction messages generalizing tree with
  | nil => exact absurd rfl h
  | cons message rest ih =>
    have hstep : tree.addAllFor key (message :: rest)
        = (tree.addFor key message).addAllFor key rest := rfl
    cases rest with
    | nil => rfl
    | cons next rest =>
      rw [hstep, ih _ (List.cons_ne_nil next rest), addFor, setChild_setChild, child_setChild_self]
      simp [add]

/-- The trees of lists of messages under their keys; an empty list has none. -/
def filed {α : Type} (key : α → String) (messages : α → List String) (items : List α) :
    List (String × IssueTree) :=
  (items.filter fun item => !(messages item).isEmpty).map fun item => (key item, ⟨messages item, []⟩)

/-- Lists of messages filed under different keys, none of them taken, each make a tree of their own. -/
theorem foldl_addAllFor_eq {α : Type} (key : α → String) (messages : α → List String)
    {items : List α} (distinct : (items.map key).Nodup) {tree : IssueTree}
    (free : ∀ item ∈ items, Keyed.get? (key item) tree.children = none) :
    items.foldl (fun tree item => tree.addAllFor (key item) (messages item)) tree =
      ⟨tree.messages, Keyed.overlay tree.children (filed key messages items)⟩ := by
  induction items generalizing tree with
  | nil => cases tree; rfl
  | cons item rest ih =>
    obtain ⟨hitem, hrest⟩ := List.nodup_cons.1 distinct
    by_cases he : messages item = []
    · have hskip : tree.addAllFor (key item) (messages item) = tree := by rw [he]; rfl
      rw [List.foldl_cons, hskip, ih hrest fun other ho => free other (List.mem_cons_of_mem _ ho)]
      simp [filed, he]
    · have hchild : tree.child (key item) = empty := by
        simp [child, free item (List.mem_cons_self ..)]
      have hput : tree.addAllFor (key item) (messages item)
          = tree.setChild (key item) ⟨messages item, []⟩ := by
        rw [addAllFor_eq tree (key item) he, hchild]
        rfl
      have hfree : ∀ other ∈ rest, Keyed.get? (key other)
          (tree.setChild (key item) ⟨messages item, []⟩).children = none := by
        intro other ho
        have hne : key other ≠ key item := fun heq => hitem (heq ▸ List.mem_map_of_mem ho)
        rw [setChild, Keyed.get?_insert_of_ne hne]
        exact free other (List.mem_cons_of_mem _ ho)
      rw [List.foldl_cons, hput, ih hrest hfree]
      simp [filed, he, setChild, Keyed.overlay]

theorem keys_filed_nodup {α : Type} {key : α → String} (messages : α → List String) {items : List α}
    (distinct : (items.map key).Nodup) : (Keyed.keys (filed key messages items)).Nodup := by
  rw [Keyed.keys, filed, List.map_map]
  exact distinct.sublist (List.filter_sublist.map key)

theorem mem_filed {α : Type} {key : α → String} {messages : α → List String} {items : List α}
    {name : String} {below : IssueTree} : (name, below) ∈ filed key messages items ↔
      ∃ item ∈ items, key item = name ∧ messages item ≠ [] ∧ below = ⟨messages item, []⟩ := by
  simp only [filed, List.mem_map, List.mem_filter, Prod.mk.injEq, Bool.not_eq_true',
    List.isEmpty_eq_false_iff, and_assoc]
  constructor
  · rintro ⟨item, hm, hne, hkey, rfl⟩
    exact ⟨item, hm, hkey, hne, rfl⟩
  · rintro ⟨item, hm, hkey, hne, rfl⟩
    exact ⟨item, hm, hne, hkey, rfl⟩

/-- Under the key of a list stands the list, unless it is empty. -/
theorem get?_filed {α : Type} {key : α → String} (messages : α → List String) {items : List α}
    (distinct : (items.map key).Nodup) {item : α} (hm : item ∈ items) :
    Keyed.get? (key item) (Keyed.ofList (filed key messages items)) =
      if messages item = [] then none else some ⟨messages item, []⟩ := by
  have hmem {name : String} {below : IssueTree} :
      (name, below) ∈ Keyed.ofList (filed key messages items) ↔ _ :=
    (Keyed.mem_ofList (keys_filed_nodup messages distinct)).trans mem_filed
  split
  · next hnone =>
    apply Keyed.get?_eq_none
    intro hkey
    obtain ⟨⟨_, below⟩, hentry, rfl⟩ := List.mem_map.1 hkey
    obtain ⟨other, ho, hsame, hne, -⟩ := hmem.1 hentry
    exact hne (List.inj_on_of_nodup_map distinct ho hm hsame ▸ hnone)
  · next hsome =>
    exact (Keyed.get?_eq_some_iff (Keyed.ascending_ofList _)).2 (hmem.2 ⟨item, hm, rfl, hsome, rfl⟩)

/-- Lists of messages filed under different keys in the empty tree: each key that got a message is
there, with just its messages. -/
theorem foldl_addAllFor_empty {α : Type} (key : α → String) (messages : α → List String)
    {items : List α} (distinct : (items.map key).Nodup) : ∃ children,
    items.foldl (fun tree item => tree.addAllFor (key item) (messages item)) empty = ⟨[], children⟩ ∧
      Keyed.Ascending children ∧ ∀ name below, (name, below) ∈ children ↔
        ∃ item ∈ items, key item = name ∧ messages item ≠ [] ∧ below = ⟨messages item, []⟩ := by
  refine ⟨Keyed.ofList (filed key messages items), ?_, Keyed.ascending_ofList _, ?_⟩
  · exact foldl_addAllFor_eq key messages distinct fun _ _ => rfl
  · exact fun name below => (Keyed.mem_ofList (keys_filed_nodup messages distinct)).trans mem_filed

end EntityModel.IssueTree
