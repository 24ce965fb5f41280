import EntityModel.Keyed

/-!
# Issues, filed by route

A check reports every issue it finds instead of stopping at the first. An issue is a message
filed under a route, the path of keys that leads to what is wrong; a tree holds the messages of
its own level and, under each key, the tree of that key.

Results:
* `size_eq_sum`: the size is the messages here and the sizes below.
* `merge_empty`: merging nothing changes nothing.
-/
namespace EntityModel

/-- Messages of this level and the trees below it. -/
structure IssueTree where
  messages : List String
  children : List (String × IssueTree)

namespace IssueTree

/-- The tree without issues. -/
def empty : IssueTree := ⟨[], []⟩

instance : Inhabited IssueTree := ⟨empty⟩

/-- Files a message at this level. -/
def add (tree : IssueTree) (message : String) : IssueTree :=
  { tree with messages := tree.messages ++ [message] }

/-- The tree under a key, or the empty one. -/
def child (tree : IssueTree) (key : String) : IssueTree := (Keyed.get? key tree.children).getD empty

/-- Puts a tree under a key. -/
def setChild (tree : IssueTree) (key : String) (below : IssueTree) : IssueTree :=
  { tree with children := Keyed.insert key below tree.children }

/-- Files a message under a key. -/
def addFor (tree : IssueTree) (key message : String) : IssueTree :=
  tree.setChild key ((tree.child key).add message)

mutual

/-- No message at any level. -/
def isEmpty : IssueTree → Bool
  | ⟨messages, children⟩ => messages.isEmpty && allEmpty children
termination_by structural tree => tree

/-- No message in any of the trees. -/
def allEmpty : List (String × IssueTree) → Bool
  | [] => true
  | (_, tree) :: rest => tree.isEmpty && allEmpty rest
termination_by structural trees => trees

end

mutual

/-- The number of messages at all levels. -/
def size : IssueTree → Nat
  | ⟨messages, children⟩ => messages.length + sizeAll children
termination_by structural tree => tree

/-- The number of messages in all the trees. -/
def sizeAll : List (String × IssueTree) → Nat
  | [] => 0
  | (_, tree) :: rest => tree.size + sizeAll rest
termination_by structural trees => trees

end

mutual

/-- Adds the issues of the second tree to the first, level by level; a subtree without issues
leaves no key behind. -/
def merge (tree : IssueTree) : IssueTree → IssueTree
  | ⟨messages, children⟩ => mergeAll { tree with messages := tree.messages ++ messages } children
termination_by structural other => other

/-- Adds each of the trees under its key. -/
def mergeAll (tree : IssueTree) : List (String × IssueTree) → IssueTree
  | [] => tree
  | (key, below) :: rest =>
    mergeAll (if below.isEmpty then tree else tree.setChild key ((tree.child key).merge below)) rest
termination_by structural trees => trees

end

/-- Adds the issues of a tree under a key; one without issues leaves no key behind. -/
def mergeFor (tree : IssueTree) (key : String) (below : IssueTree) : IssueTree :=
  if below.isEmpty then tree else tree.setChild key ((tree.child key).merge below)

/-- A message with the dotted route that leads to it. -/
def line (route : Option String) (message : String) : String :=
  match route with
  | some route => route ++ ": " ++ message
  | none => message

/-- The dotted route one key further. -/
def extendRoute (route : Option String) (key : String) : String :=
  match route with
  | some route => route ++ "." ++ key
  | none => key

mutual

/-- Every message with its route, level before sublevels, when the tree stands at `route`. -/
def linesAt (route : Option String) : IssueTree → List String
  | ⟨messages, children⟩ => messages.map (line route) ++ linesBelow route children
termination_by structural tree => tree

/-- The lines of the trees under their keys. -/
def linesBelow (route : Option String) : List (String × IssueTree) → List String
  | [] => []
  | (key, tree) :: rest => tree.linesAt (some (extendRoute route key)) ++ linesBelow route rest
termination_by structural trees => trees

end

/-- Every message with its route. -/
def lines (tree : IssueTree) : List String := tree.linesAt none

/-- The lines in one text. -/
def text (tree : IssueTree) : String := "; ".intercalate tree.lines

/-- A check passes when it found nothing. -/
def result (tree : IssueTree) : Except IssueTree Unit :=
  if tree.isEmpty then .ok () else .error tree

/-- The messages at a route. -/
def messagesAt (tree : IssueTree) : List String → List String
  | [] => tree.messages
  | key :: route => (tree.child key).messagesAt route

theorem size_eq_sum (tree : IssueTree) :
    tree.size = tree.messages.length
      + (tree.children.map fun entry => entry.2.size).foldr (· + ·) 0 := by
  have h : ∀ trees : List (String × IssueTree),
      sizeAll trees = (trees.map fun entry => entry.2.size).foldr (· + ·) 0 := by
    intro trees
    induction trees with
    | nil => rfl
    | cons entry rest ih => obtain ⟨_, _⟩ := entry; simp [sizeAll, ih]
  cases tree
  simp [size, h]

theorem merge_empty (tree : IssueTree) : tree.merge empty = tree := by
  cases tree
  simp [empty, merge, mergeAll]

end IssueTree

end EntityModel
