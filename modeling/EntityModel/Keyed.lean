/-!
# Entries under string keys

A list of entries in ascending order of key, each key once. Every operation keeps that order, so
a list built by `insert` from the empty one is read the same whatever the order of insertion.

Results:
* `get?_insert_self`, `get?_insert_of_ne`: reading back what was put in.
* `mem_keys_insert`: the keys after putting one in.
* `Ascending.insert`, `Ascending.erase`: the order is kept.
-/
namespace EntityModel

/-- Entries under string keys. -/
abbrev Keyed (α : Type) := List (String × α)

namespace Keyed

variable {α β : Type}

/-- The keys, in order. -/
def keys (entries : Keyed α) : List String := entries.map Prod.fst

/-- The keys ascend strictly. -/
def Ascending (entries : Keyed α) : Prop := (keys entries).Pairwise (· < ·)

/-- The value under a key. -/
def get? (key : String) : Keyed α → Option α
  | [] => none
  | (k, v) :: rest => if k = key then some v else get? key rest

/-- The entries have the key. -/
def has (key : String) (entries : Keyed α) : Bool := (get? key entries).isSome

/-- Puts a value under a key, replacing the one there. -/
def insert (key : String) (value : α) : Keyed α → Keyed α
  | [] => [(key, value)]
  | (k, v) :: rest =>
    if key < k then (key, value) :: (k, v) :: rest
    else if key = k then (key, value) :: rest
    else (k, v) :: insert key value rest

/-- Takes a key out. -/
def erase (key : String) : Keyed α → Keyed α
  | [] => []
  | (k, v) :: rest => if k = key then rest else (k, v) :: erase key rest

/-- Puts every entry in, from the first to the last. -/
def overlay (base : Keyed α) (entries : List (String × α)) : Keyed α :=
  entries.foldl (fun acc entry => insert entry.1 entry.2 acc) base

/-- Entries in any order; of two with one key the later counts. -/
def ofList (entries : List (String × α)) : Keyed α := overlay [] entries

theorem get?_insert_self (key : String) (value : α) (entries : Keyed α) :
    get? key (insert key value entries) = some value := by
  induction entries with
  | nil => simp [insert, get?]
  | cons entry rest ih =>
    obtain ⟨k, v⟩ := entry
    simp only [insert]
    split
    · simp [get?]
    · split
      · simp [get?]
      · next h => simp [get?, Ne.symm h, ih]

theorem get?_insert_of_ne {key other : String} (h : other ≠ key) (value : α) (entries : Keyed α) :
    get? other (insert key value entries) = get? other entries := by
  induction entries with
  | nil => simp [insert, get?, Ne.symm h]
  | cons entry rest ih =>
    obtain ⟨k, v⟩ := entry
    simp only [insert]
    split
    · simp [get?, Ne.symm h]
    · split
      · next hk => subst hk; simp [get?, Ne.symm h]
      · simp [get?, ih]

theorem mem_keys_insert (key other : String) (value : α) (entries : Keyed α) :
    other ∈ keys (insert key value entries) ↔ other = key ∨ other ∈ keys entries := by
  induction entries with
  | nil => simp [insert, keys]
  | cons entry rest ih =>
    obtain ⟨k, v⟩ := entry
    simp only [keys] at ih
    simp only [insert]
    split
    · simp [keys]
    · split
      · next hk => subst hk; simp [keys]
      · simp only [keys, List.map_cons, List.mem_cons, ih]; grind

theorem Ascending.insert {entries : Keyed α} (h : Ascending entries) (key : String) (value : α) :
    Ascending (Keyed.insert key value entries) := by
  induction entries with
  | nil => simp [Ascending, Keyed.insert, keys]
  | cons entry rest ih =>
    obtain ⟨k, v⟩ := entry
    have hk : ∀ other ∈ keys rest, k < other := (List.pairwise_cons.1 h).1
    have hr : Ascending rest := (List.pairwise_cons.1 h).2
    simp only [Keyed.insert]
    split
    · next hlt =>
      refine List.pairwise_cons.2 ⟨?_, h⟩
      intro other ho
      rcases List.mem_cons.1 ho with rfl | ho
      · exact hlt
      · exact String.lt_trans hlt (hk other ho)
    · next hge =>
      split
      · next he => subst he; exact h
      · next hne =>
        refine List.pairwise_cons.2 ⟨?_, ih hr⟩
        intro other ho
        rcases (mem_keys_insert key other value rest).1 ho with rfl | ho
        · have := String.le_antisymm (a := other) (b := k)
          grind
        · exact hk other ho

theorem erase_sublist (key : String) (entries : Keyed α) : (erase key entries).Sublist entries := by
  induction entries with
  | nil => simp [erase]
  | cons entry rest ih =>
    obtain ⟨k, v⟩ := entry
    simp only [erase]
    split
    · exact List.sublist_cons_self _ _
    · exact ih.cons_cons _

theorem Ascending.erase {entries : Keyed α} (h : Ascending entries) (key : String) :
    Ascending (Keyed.erase key entries) :=
  List.Pairwise.sublist ((erase_sublist key entries).map Prod.fst) h

end Keyed

end EntityModel
