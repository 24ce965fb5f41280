import EntityModel.Keyed

/-!
# Entries in ascending order

What goes into a keyed list comes out of it, and a list that ascends already is rebuilt as it is.

Results:
* `mem_insert`, `insert_perm`: the entries of the list after an insertion are the new one and old ones.
* `insert_insert`: of two values put under a key the second stays.
* `get?_eq_none`: a key that no entry has is not found.
* `ofList_of_ascending`: entries in ascending order are kept as they stand.
* `Ascending.eq_of_perm`: in ascending order there is one list of the same entries.
* `get?_eq_some_iff`, `filter_key`: in ascending order an entry is found under its key, and alone.
* `Ascending.ext`: in ascending order there is one list in which the same is found.
* `get?_erase_self`, `get?_erase_of_ne`: what is found after a key is taken out.
* `get?_overlay`: of entries in any order the last one under a key counts.
* `get?_overlay_of_mem`, `get?_ofList_of_mem`: entries in any order are all found.
* `ascending_ofList`, `mem_ofList`: entries under different keys are put in order.
-/
namespace EntityModel.Keyed

variable {α : Type}

instance (entries : Keyed α) : Decidable (Ascending entries) :=
  inferInstanceAs (Decidable ((keys entries).Pairwise (· < ·)))

theorem mem_insert {key : String} {value : α} {entries : Keyed α} {entry : String × α}
    (h : entry ∈ insert key value entries) : entry = (key, value) ∨ entry ∈ entries := by
  induction entries with
  | nil => left; simpa [insert] using h
  | cons head rest ih =>
    obtain ⟨k, v⟩ := head
    simp only [insert] at h
    split at h
    · rcases List.mem_cons.1 h with h | h
      · exact .inl h
      · exact .inr h
    · split at h
      · rcases List.mem_cons.1 h with h | h
        · exact .inl h
        · exact .inr (List.mem_cons_of_mem _ h)
      · rcases List.mem_cons.1 h with rfl | h
        · exact .inr (List.mem_cons_self ..)
        · rcases ih h with h | h
          · exact .inl h
          · exact .inr (List.mem_cons_of_mem _ h)

theorem get?_eq_none {key : String} {entries : Keyed α} (h : key ∉ keys entries) :
    get? key entries = none := by
  induction entries with
  | nil => rfl
  | cons head rest ih =>
    obtain ⟨k, v⟩ := head
    simp only [keys, List.map_cons, List.mem_cons, not_or] at h
    rw [get?, if_neg (Ne.symm h.1)]
    exact ih h.2

theorem has_eq_true_iff {key : String} {entries : Keyed α} :
    has key entries = true ↔ key ∈ keys entries := by
  induction entries with
  | nil => simp [has, get?, keys]
  | cons head rest ih =>
    obtain ⟨k, v⟩ := head
    by_cases hk : k = key
    · simp [has, get?, keys, hk]
    · simpa [has, get?, keys, hk, Ne.symm hk] using ih

/-- A new key adds one entry. -/
theorem insert_perm {key : String} {entries : Keyed α} (h : key ∉ keys entries) (value : α) :
    (insert key value entries).Perm ((key, value) :: entries) := by
  induction entries with
  | nil => exact .refl _
  | cons head rest ih =>
    obtain ⟨k, v⟩ := head
    simp only [keys, List.map_cons, List.mem_cons, not_or] at h
    simp only [insert, if_neg h.1]
    split
    · exact .refl _
    · exact ((ih h.2).cons _).trans (.swap _ _ _)

theorem insert_cons_self (key : String) (first second : α) (rest : Keyed α) :
    insert key second ((key, first) :: rest) = (key, second) :: rest := by
  rw [insert, if_neg (String.lt_irrefl key), if_pos rfl]

/-- A value put under a key twice is there once. -/
theorem insert_insert (key : String) (first second : α) (entries : Keyed α) :
    insert key second (insert key first entries) = insert key second entries := by
  induction entries with
  | nil => exact insert_cons_self key first second []
  | cons head rest ih =>
    obtain ⟨k, v⟩ := head
    by_cases hlt : key < k
    · have hput (value : α) : insert key value ((k, v) :: rest) = (key, value) :: (k, v) :: rest := by
        rw [insert, if_pos hlt]
      rw [hput, hput, insert_cons_self]
    · by_cases he : key = k
      · subst he
        simp only [insert_cons_self]
      · have hput (value : α) (tail : Keyed α) :
            insert key value ((k, v) :: tail) = (k, v) :: insert key value tail := by
          rw [insert, if_neg hlt, if_neg he]
        rw [hput, hput, hput, ih]

/-- In ascending order there is one list of the same entries. -/
theorem Ascending.eq_of_perm {entries other : Keyed α} (h : Ascending entries)
    (ho : Ascending other) (hp : entries.Perm other) : entries = other := by
  have hpair {list : Keyed α} (hl : Ascending list) : list.Pairwise fun a b => a.1 < b.1 :=
    List.pairwise_map.1 hl
  refine hp.eq_of_pairwise (fun a b _ _ hab hba => ?_) (hpair h) (hpair ho)
  exact absurd hba (String.lt_asymm hab)

/-- An entry that comes after all others is put at the end. -/
theorem insert_last {key : String} {value : α} {entries : Keyed α}
    (h : ∀ k ∈ keys entries, k < key) : insert key value entries = entries ++ [(key, value)] := by
  induction entries with
  | nil => rfl
  | cons head rest ih =>
    obtain ⟨k, v⟩ := head
    have hk : k < key := h k (by simp [keys])
    have hne : key ≠ k := fun he => String.lt_irrefl _ (he ▸ hk)
    have hr := ih fun k' hk' => h k' (List.mem_cons_of_mem _ hk')
    rw [insert, if_neg (String.lt_asymm hk), if_neg hne, hr, List.cons_append]

theorem overlay_of_ascending (base entries : Keyed α) (h : Ascending (base ++ entries)) :
    overlay base entries = base ++ entries := by
  induction entries generalizing base with
  | nil => simp [overlay]
  | cons head rest ih =>
    obtain ⟨k, v⟩ := head
    have hlast : insert k v base = base ++ [(k, v)] := by
      apply insert_last
      intro k' hk'
      have hp := h
      simp only [Ascending, keys, List.map_append, List.pairwise_append] at hp
      exact hp.2.2 k' hk' k (by simp)
    rw [overlay, List.foldl_cons, hlast]
    have := ih (base ++ [(k, v)]) (by simpa using h)
    simpa [overlay] using this

theorem ofList_of_ascending {entries : Keyed α} (h : Ascending entries) :
    ofList entries = entries :=
  overlay_of_ascending [] entries h

/-! ## Entries in any order -/

/-- Of the entries put in, the last one under a key counts. -/
theorem get?_overlay (key : String) (base entries : Keyed α) : get? key (overlay base entries) =
    ((entries.reverse.find? (·.1 == key)).map Prod.snd).or (get? key base) := by
  induction entries generalizing base with
  | nil => rfl
  | cons head rest ih =>
    obtain ⟨k, v⟩ := head
    have hrest : get? key (overlay (insert k v base) rest) = _ := ih (insert k v base)
    rw [show overlay base ((k, v) :: rest) = overlay (insert k v base) rest from rfl, hrest,
      List.reverse_cons, List.find?_append]
    by_cases hk : k = key
    · subst hk
      cases rest.reverse.find? (·.1 == k) <;> simp [get?_insert_self]
    · have hbase : get? key (insert k v base) = get? key base := get?_insert_of_ne (Ne.symm hk) ..
      cases rest.reverse.find? (·.1 == key) <;> simp [hk, hbase]

theorem mem_keys_overlay {key : String} {base entries : Keyed α} :
    key ∈ keys (overlay base entries) ↔ key ∈ keys entries ∨ key ∈ keys base := by
  induction entries generalizing base with
  | nil => simp [overlay, keys]
  | cons head rest ih =>
    rw [show overlay base (head :: rest) = overlay (insert head.1 head.2 base) rest from rfl, ih,
      mem_keys_insert, show keys (head :: rest) = head.1 :: keys rest from rfl, List.mem_cons,
      or_left_comm, or_assoc]

theorem mem_keys_ofList {key : String} {entries : List (String × α)} :
    key ∈ keys (ofList entries) ↔ key ∈ keys entries := by
  rw [ofList, mem_keys_overlay, show keys ([] : Keyed α) = [] from rfl]
  simp

theorem get?_ofList (key : String) (entries : List (String × α)) :
    get? key (ofList entries) = (entries.reverse.find? (·.1 == key)).map Prod.snd := by
  simp [ofList, get?_overlay, get?]

theorem get?_overlay_of_not_mem {key : String} {base entries : Keyed α} (h : key ∉ keys entries) :
    get? key (overlay base entries) = get? key base := by
  induction entries generalizing base with
  | nil => rfl
  | cons head rest ih =>
    simp only [keys, List.map_cons, List.mem_cons, not_or] at h
    have hrest : get? key (overlay (insert head.1 head.2 base) rest) = _ := ih h.2
    rw [get?_insert_of_ne h.1] at hrest
    exact hrest

/-- Of entries under different keys each is found. -/
theorem get?_overlay_of_mem {key : String} {value : α} {base entries : Keyed α}
    (hn : (keys entries).Nodup) (h : (key, value) ∈ entries) :
    get? key (overlay base entries) = some value := by
  induction entries generalizing base with
  | nil => simp at h
  | cons head rest ih =>
    obtain ⟨hhead, hrest⟩ := List.nodup_cons.1 hn
    rcases List.mem_cons.1 h with he | hm
    · subst he
      have hsame : get? key (overlay (insert key value base) rest) = _ :=
        get?_overlay_of_not_mem hhead
      rw [get?_insert_self] at hsame
      exact hsame
    · exact ih hrest hm

theorem get?_ofList_of_mem {key : String} {value : α} {entries : List (String × α)}
    (hn : (keys entries).Nodup) (h : (key, value) ∈ entries) :
    get? key (ofList entries) = some value :=
  get?_overlay_of_mem hn h

theorem get?_ofList_of_not_mem {key : String} {entries : List (String × α)}
    (h : key ∉ keys entries) : get? key (ofList entries) = none :=
  get?_overlay_of_not_mem h

/-! ## Reading what is there -/

theorem Ascending.nodup {entries : Keyed α} (h : Ascending entries) : (keys entries).Nodup := by
  have hne {a b : String} (hlt : a < b) : a ≠ b := fun heq => String.lt_irrefl _ (heq ▸ hlt)
  exact List.Pairwise.imp hne h

theorem mem_of_get? {key : String} {value : α} {entries : Keyed α}
    (h : get? key entries = some value) : (key, value) ∈ entries := by
  induction entries with
  | nil => cases h
  | cons head rest ih =>
    obtain ⟨k, v⟩ := head
    rw [get?] at h
    split at h
    · next hk =>
      cases h
      rw [hk]
      exact List.mem_cons_self ..
    · exact List.mem_cons_of_mem _ (ih h)

/-- In ascending order the entries are just what is found. -/
theorem get?_eq_some_iff {entries : Keyed α} (ha : Ascending entries) {key : String} {value : α} :
    get? key entries = some value ↔ (key, value) ∈ entries := by
  refine ⟨mem_of_get?, fun h => ?_⟩
  have hget : get? key (overlay [] entries) = some value := get?_overlay_of_mem ha.nodup h
  rwa [overlay_of_ascending [] entries ha] at hget

theorem ascending_overlay {base : Keyed α} (h : Ascending base) (entries : List (String × α)) :
    Ascending (overlay base entries) := by
  induction entries generalizing base with
  | nil => exact h
  | cons entry rest ih => exact ih (h.insert entry.1 entry.2)

theorem ascending_ofList (entries : List (String × α)) : Ascending (ofList entries) := by
  have hnil : Ascending ([] : Keyed α) := List.Pairwise.nil
  exact ascending_overlay hnil entries

/-- Entries under different keys are kept in another order. -/
theorem mem_ofList {entries : List (String × α)} (hn : (keys entries).Nodup) {key : String}
    {value : α} : (key, value) ∈ ofList entries ↔ (key, value) ∈ entries := by
  rw [← get?_eq_some_iff (ascending_ofList entries)]
  refine ⟨fun h => ?_, fun h => get?_overlay_of_mem hn h⟩
  have hkey : key ∈ keys (ofList entries) := List.mem_map_of_mem (mem_of_get? h)
  obtain ⟨⟨_, found⟩, hm, rfl⟩ := List.mem_map.1 (mem_keys_ofList.1 hkey)
  have hfound : get? _ (ofList entries) = some found := get?_overlay_of_mem hn hm
  rwa [← Option.some.inj (hfound.symm.trans h)]

theorem Ascending.nodup_entries {entries : Keyed α} (h : Ascending entries) : entries.Nodup :=
  List.Pairwise.of_map Prod.fst (fun _ _ hne heq => hne (congrArg Prod.fst heq)) h.nodup

/-- Entries in ascending order are told apart by what is found. -/
theorem Ascending.ext {entries other : Keyed α} (h : Ascending entries) (ho : Ascending other)
    (same : ∀ key, get? key entries = get? key other) : entries = other := by
  refine h.eq_of_perm ho ((List.perm_ext_iff_of_nodup h.nodup_entries ho.nodup_entries).2 ?_)
  rintro ⟨key, value⟩
  rw [← get?_eq_some_iff h, ← get?_eq_some_iff ho, same]

/-- In ascending order an entry is alone with its key. -/
theorem filter_key {entries : Keyed α} (ha : Ascending entries) (key : String) :
    entries.filter (·.1 == key) = ((get? key entries).map fun value => (key, value)).toList := by
  induction entries with
  | nil => rfl
  | cons head rest ih =>
    obtain ⟨k, v⟩ := head
    obtain ⟨hhead, hrest⟩ := List.pairwise_cons.1 ha
    by_cases hk : k = key
    · subst hk
      have hnone : get? k rest = none := get?_eq_none fun hm => String.lt_irrefl _ (hhead k hm)
      simp [get?, ih hrest, hnone]
    · simp [get?, hk, ih hrest]

/-! ## Taking a key out -/

theorem get?_erase_of_ne {key other : String} (h : other ≠ key) (entries : Keyed α) :
    get? other (erase key entries) = get? other entries := by
  induction entries with
  | nil => rfl
  | cons head rest ih =>
    obtain ⟨k, v⟩ := head
    simp only [erase]
    split
    · next hk =>
      subst hk
      simp [get?, Ne.symm h]
    · simp [get?, ih]

/-- In ascending order a key is there once, so it is gone once taken out. -/
theorem get?_erase_self {entries : Keyed α} (ha : Ascending entries) (key : String) :
    get? key (erase key entries) = none := by
  induction entries with
  | nil => rfl
  | cons head rest ih =>
    obtain ⟨k, v⟩ := head
    obtain ⟨hhead, hrest⟩ := List.pairwise_cons.1 ha
    simp only [erase]
    split
    · next hk =>
      subst hk
      exact get?_eq_none fun hm => String.lt_irrefl _ (hhead k hm)
    · next hk =>
      rw [get?, if_neg hk]
      exact ih hrest

end EntityModel.Keyed
