import EntityModel.Proofs.Store
import Mathlib.Data.List.Induction

/-!
# Changes to documents

The documents of an entity are told by the changes made to them: a document is put in under a new
id, others are laid over it, and it is taken out. A document *lives* under an id when it was put in
under it and not taken out since; it is then what was put in with everything laid over it since.

Results:
* `live_snoc`: what lives after one more change.
* `get?_replay_iff`: carrying out the changes leaves just the documents that live.
* `labelled_replay`: these carry their ids.
-/
namespace EntityModel

/-- A change to the documents of an entity. -/
inductive Change where
  | insert (id : String) (document : Members)
  | update (id : String) (document : Members)
  | delete (id : String)

namespace Change

/-- Carries out a change. -/
def apply (documents : Keyed Members) : Change → Keyed Members
  | insert id document =>
    Keyed.insert id (Keyed.insert Store.idKey (.str id) document) documents
  | update id document =>
    match Keyed.get? id documents with
    | some held => Keyed.insert id (Keyed.overlay held document) documents
    | none => documents
  | delete id => Keyed.erase id documents

/-- The documents that changes leave when there were none before. -/
def replay (changes : List Change) : Keyed Members := changes.foldl apply []

/-- The id under which a document is put in. -/
def inserted? : Change → Option String
  | insert id _ => some id
  | _ => none

/-- What is laid over the document with an id. -/
def patch? (id : String) : Change → Option Members
  | update other document => if other = id then some document else none
  | _ => none

/-- A document lives under an id: it was put in, not taken out since, and is what was put in with
all that was laid over it since. -/
def Live (changes : List Change) (id : String) (document : Members) : Prop :=
  ∃ before inserted after, changes = before ++ insert id inserted :: after ∧ delete id ∉ after ∧
    document = (after.filterMap (patch? id)).foldl Keyed.overlay
      (Keyed.insert Store.idKey (.str id) inserted)

/-- What is laid over a document carries the document's id, under keys in ascending order. -/
def Sound : Change → Prop
  | update id document => Keyed.Ascending document ∧ Keyed.get? Store.idKey document = some (.str id)
  | _ => True

/-! ## One more change -/

theorem snoc_eq_append_cons {α : Type} {xs before after : List α} {x last : α} :
    xs ++ [last] = before ++ x :: after ↔ (after = [] ∧ before = xs ∧ x = last) ∨
      ∃ rest, after = rest ++ [last] ∧ xs = before ++ x :: rest := by
  constructor
  · intro h
    rcases List.eq_nil_or_concat after with rfl | ⟨rest, final, rfl⟩
    · obtain ⟨hxs, hlast⟩ := List.append_inj' h rfl
      exact .inl ⟨rfl, hxs.symm, (List.singleton_inj.1 hlast).symm⟩
    · rw [List.concat_eq_append, ← List.cons_append, ← List.append_assoc] at h
      obtain ⟨hxs, hlast⟩ := List.append_inj' h rfl
      rw [List.concat_eq_append, List.singleton_inj.1 hlast]
      exact .inr ⟨rest, rfl, hxs⟩
  · rintro (⟨rfl, rfl, rfl⟩ | ⟨rest, rfl, rfl⟩)
    · rfl
    · simp

/-- What lives after one more change: what it puts in, and what lived before and is not taken out,
with what the change lays over it. -/
theorem live_snoc {changes : List Change} {change : Change} {id : String} {document : Members} :
    Live (changes ++ [change]) id document ↔
      (∃ inserted, change = insert id inserted ∧
        document = Keyed.insert Store.idKey (.str id) inserted) ∨
      change ≠ delete id ∧ ∃ held, Live changes id held ∧
        document = (patch? id change).elim held (Keyed.overlay held) := by
  constructor
  · rintro ⟨before, inserted, after, hsplit, hkept, hdocument⟩
    rcases snoc_eq_append_cons.1 hsplit with ⟨rfl, rfl, rfl⟩ | ⟨rest, rfl, rfl⟩
    · exact .inl ⟨inserted, rfl, hdocument⟩
    · simp only [List.mem_append, List.mem_singleton, not_or] at hkept
      refine .inr ⟨Ne.symm hkept.2, _, ⟨before, inserted, rest, rfl, hkept.1, rfl⟩, ?_⟩
      rw [hdocument, List.filterMap_append, List.foldl_append]
      cases hp : patch? id change <;> simp [hp]
  · rintro (⟨inserted, rfl, rfl⟩ | ⟨hchange, held, ⟨before, inserted, after, rfl, hkept, rfl⟩, rfl⟩)
    · exact ⟨changes, inserted, [], rfl, by simp, rfl⟩
    · refine ⟨before, inserted, after ++ [change], by simp, by simp [hkept, Ne.symm hchange], ?_⟩
      rw [List.filterMap_append, List.foldl_append]
      cases hp : patch? id change <;> simp [hp]

/-- What is found after a change, if it puts nothing in under an id that is taken. -/
theorem get?_apply_iff {documents : Keyed Members} (ha : Keyed.Ascending documents) {change : Change}
    {id : String} {document : Members}
    (fresh : ∀ inserted, change = insert id inserted → Keyed.get? id documents = none) :
    Keyed.get? id (apply documents change) = some document ↔
      (∃ inserted, change = insert id inserted ∧
        document = Keyed.insert Store.idKey (.str id) inserted) ∨
      change ≠ delete id ∧ ∃ held, Keyed.get? id documents = some held ∧
        document = (patch? id change).elim held (Keyed.overlay held) := by
  cases change with
  | insert other inserted =>
    by_cases ho : other = id
    · subst ho
      simp [apply, Keyed.get?_insert_self, fresh inserted rfl, eq_comm]
    · simp [apply, Keyed.get?_insert_of_ne (Ne.symm ho), Ne.symm ho, patch?, eq_comm]
  | update other patch =>
    by_cases ho : other = id
    · subst ho
      cases hg : Keyed.get? other documents <;>
        simp [apply, hg, Keyed.get?_insert_self, patch?, eq_comm]
    · have hkept : Keyed.get? id (apply documents (update other patch))
          = Keyed.get? id documents := by
        simp only [apply]
        split
        · exact Keyed.get?_insert_of_ne (Ne.symm ho) ..
        · rfl
      simp [hkept, ho, patch?, eq_comm]
  | delete other =>
    by_cases ho : other = id
    · subst ho
      simp [apply, Keyed.get?_erase_self ha]
    · simp [apply, Keyed.get?_erase_of_ne (Ne.symm ho), Ne.symm ho, patch?, eq_comm]

/-! ## All changes -/

theorem ascending_apply {documents : Keyed Members} (ha : Keyed.Ascending documents)
    (change : Change) : Keyed.Ascending (apply documents change) := by
  cases change with
  | insert id document => exact ha.insert ..
  | update id document =>
    simp only [apply]
    split
    · exact ha.insert ..
    · exact ha
  | delete id => exact ha.erase ..

theorem replay_append (changes more : List Change) :
    replay (changes ++ more) = more.foldl apply (replay changes) :=
  List.foldl_append

theorem ascending_replay (changes : List Change) : Keyed.Ascending (replay changes) := by
  induction changes using List.reverseRecOn with
  | nil => exact List.Pairwise.nil
  | append_singleton changes change ih =>
    rw [replay_append]
    exact ascending_apply ih change

theorem Live.inserted {changes : List Change} {id : String} {document : Members}
    (h : Live changes id document) : id ∈ changes.filterMap inserted? := by
  obtain ⟨before, inserted, after, rfl, -, -⟩ := h
  exact List.mem_filterMap.2 ⟨insert id inserted, by simp, rfl⟩

/-- Carrying out the changes leaves just the documents that live, if each is put in under an id of
its own. -/
theorem get?_replay_iff {changes : List Change} (fresh : (changes.filterMap inserted?).Nodup)
    {id : String} {document : Members} :
    Keyed.get? id (replay changes) = some document ↔ Live changes id document := by
  induction changes using List.reverseRecOn generalizing document with
  | nil => simp [replay, Keyed.get?, Live]
  | append_singleton changes change ih =>
    rw [List.filterMap_append, List.nodup_append] at fresh
    obtain ⟨hfresh, -, hapart⟩ := fresh
    have hnew : ∀ inserted, change = insert id inserted → Keyed.get? id (replay changes) = none := by
      rintro inserted rfl
      refine Option.eq_none_iff_forall_ne_some.2 fun held hheld => ?_
      exact hapart id ((ih hfresh).1 hheld).inserted id (by simp [inserted?]) rfl
    rw [replay_append, List.foldl_cons, List.foldl_nil, get?_apply_iff (ascending_replay changes) hnew, live_snoc]
    simp only [ih hfresh]

theorem labelled_apply {documents : Keyed Members} (hl : Store.Labelled documents)
    (ha : Keyed.Ascending documents) {change : Change} (hs : change.Sound) :
    Store.Labelled (apply documents change) := by
  cases change with
  | insert id document => exact hl.insert (Keyed.get?_insert_self ..)
  | update id document =>
    simp only [apply]
    split
    · obtain ⟨hd, hid⟩ := hs
      exact hl.insert (Keyed.get?_overlay_of_mem hd.nodup (Keyed.mem_of_get? hid))
    · exact hl
  | delete id => exact hl.erase ha id

/-- The documents that changes leave carry their ids. -/
theorem labelled_replay {changes : List Change} (hs : ∀ change ∈ changes, change.Sound) :
    Store.Labelled (replay changes) := by
  induction changes using List.reverseRecOn with
  | nil =>
    intro id document h
    cases h
  | append_singleton changes change ih =>
    rw [replay_append]
    exact labelled_apply (ih fun other ho => hs other (List.mem_append_left _ ho))
      (ascending_replay changes) (hs change (by simp))

end Change

end EntityModel
