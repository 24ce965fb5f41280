import EntityModel.Proofs.Schema.Frozen

/-!
# The order of composition

A draft is composed in steps, each of which adds the fields of a list or those of a finished schema.
The fields of a draft stand in order of name and belong to it, so a draft tells only which fields
were added to it, and neither in what order nor what they belonged to before. The order matters for
one thing alone: of two names that come twice, it decides which is found first.

Results:
* `compose_eq`: steps add their fields one by one.
* `addFields_of_nodup`, `addFields_of_not_nodup`: what comes of adding fields, by their names.
* `composition_perm`: the same fields in another order, of whatever owner, make the same schema.
-/
namespace EntityModel

/-- The field as one of the schema with this name. -/
def Field.ownedBy (name : String) (field : Field) : Field := { field with owner := some name }

/-- The field apart from what it belongs to. -/
def Field.disowned (field : Field) : Field := { field with owner := none }

namespace Draft

/-- A step of composition. -/
inductive Step where
  | fields (list : List Field)
  | merge (parent : Schema)

/-- The fields that a step adds. -/
def Step.added : Step → List Field
  | .fields list => list
  | .merge parent => parent.fields

/-- The fields that steps add, from the first to the last. -/
def addedBy (steps : List Step) : List Field := steps.flatMap Step.added

/-- Carries out a step. -/
def step (draft : Draft) : Step → Except DefinitionError Draft
  | .fields list => draft.addFields list
  | .merge parent => draft.merge parent

/-- Carries out steps, up to the first that fails. -/
def compose (draft : Draft) (steps : List Step) : Except DefinitionError Draft := steps.foldlM step draft

/-! ## Adding fields -/

variable {draft : Draft} {fields : List Field}

/-- Steps add their fields one by one. -/
theorem compose_eq (draft : Draft) (steps : List Step) :
    draft.compose steps = draft.addFields (addedBy steps) := by
  induction steps generalizing draft with
  | nil => rfl
  | cons first rest ih =>
    have hfirst : draft.step first = draft.addFields first.added := by cases first <;> rfl
    rw [compose, List.foldlM_cons, hfirst, addedBy, List.flatMap_cons, addFields, addFields,
      List.foldlM_append]
    exact bind_congr fun next => ih next

theorem addFields_cons (draft : Draft) (field : Field) (rest : List Field) :
    draft.addFields (field :: rest) = draft.addField field >>= fun next => next.addFields rest :=
  List.foldlM_cons

theorem addField_of_mem {field : Field} (h : field.name ∈ Keyed.keys draft.fields) :
    draft.addField field = .error (.duplicateField draft.name field.name) := by
  rw [addField, if_pos (Keyed.has_eq_true_iff.2 h)]

/-- A field with a new name is one more entry. -/
theorem addField_of_not_mem {field : Field} (h : field.name ∉ Keyed.keys draft.fields) :
    ∃ entries, draft.addField field = .ok { draft with fields := entries } ∧
      entries.Perm ((field.name, field.ownedBy draft.name) :: draft.fields) := by
  have hnew : ¬ Keyed.has field.name draft.fields = true := fun hh => h (Keyed.has_eq_true_iff.1 hh)
  exact ⟨_, if_neg hnew, Keyed.insert_perm h _⟩

/-- The entry that a field makes. -/
def entryOf (name : String) (field : Field) : String × Field := (field.name, field.ownedBy name)

theorem keys_perm {entries : Keyed Field} {field : Field} (rest : List String)
    (h : entries.Perm ((field.name, field.ownedBy draft.name) :: draft.fields)) :
    (Keyed.keys entries ++ rest).Perm (Keyed.keys draft.fields ++ field.name :: rest) :=
  ((h.map Prod.fst).append_right rest).trans List.perm_middle.symm

/-- Fields under names of their own are added. -/
theorem addFields_of_nodup (draft : Draft)
    (h : (Keyed.keys draft.fields ++ fields.map (·.name)).Nodup) :
    ∃ entries, draft.addFields fields = .ok { draft with fields := entries } ∧
      entries.Perm (draft.fields ++ fields.map (entryOf draft.name)) := by
  induction fields generalizing draft with
  | nil => exact ⟨draft.fields, rfl, by simp⟩
  | cons field rest ih =>
    have hnew : field.name ∉ Keyed.keys draft.fields := fun hm =>
      (List.nodup_append.1 h).2.2 _ hm _ (List.mem_cons_self ..) rfl
    obtain ⟨first, hfirst, hperm⟩ := addField_of_not_mem hnew
    obtain ⟨entries, hentries, hall⟩ := ih { draft with fields := first }
      ((keys_perm _ hperm).nodup_iff.2 h)
    refine ⟨entries, ?_, ?_⟩
    · rw [addFields_cons, hfirst]
      exact hentries
    · exact hall.trans ((hperm.append_right _).trans List.perm_middle.symm)

/-- Of fields with a name that comes twice one is refused, for such a name. -/
theorem addFields_of_not_nodup (draft : Draft) (hd : (Keyed.keys draft.fields).Nodup)
    (h : ¬ (Keyed.keys draft.fields ++ fields.map (·.name)).Nodup) :
    ∃ name, 1 < (Keyed.keys draft.fields ++ fields.map (·.name)).count name ∧
      draft.addFields fields = .error (.duplicateField draft.name name) := by
  induction fields generalizing draft with
  | nil => exact absurd (by simpa using hd) h
  | cons field rest ih =>
    by_cases hm : field.name ∈ Keyed.keys draft.fields
    · refine ⟨field.name, ?_, ?_⟩
      · have := List.count_pos_iff.2 hm
        simp only [List.map_cons, List.count_append, List.count_cons_self]
        omega
      · rw [addFields_cons, addField_of_mem hm]
        rfl
    · obtain ⟨first, hfirst, hperm⟩ := addField_of_not_mem hm
      have hkeys := keys_perm (rest.map (·.name)) hperm
      have hnodup : (Keyed.keys first).Nodup :=
        (hperm.map Prod.fst).nodup_iff.2 (List.nodup_cons.2 ⟨hm, hd⟩)
      obtain ⟨name, hcount, herror⟩ := ih { draft with fields := first } hnodup
        fun hn => h (hkeys.nodup_iff.1 hn)
      refine ⟨name, ?_, ?_⟩
      · rwa [hkeys.count_eq] at hcount
      · rw [addFields_cons, hfirst]
        exact herror

/-! ## Freezing -/

/-- The serial number is no part of what is checked. -/
theorem freeze_cases (draft : Draft) (serial serial' : Nat) :
    draft.freeze serial = .ok (draft.toSchema serial) ∧
        draft.freeze serial' = .ok { draft.toSchema serial with serial := serial' } ∨
      ∃ issues, draft.freeze serial = .error (.invalid draft.name issues) ∧
        draft.freeze serial' = .error (.invalid draft.name issues) := by
  have hissues : (draft.toSchema serial').issues = (draft.toSchema serial).issues := rfl
  simp only [freeze, IssueTree.result, hissues]
  split
  · exact .inl ⟨rfl, rfl⟩
  · exact .inr ⟨_, rfl, rfl⟩

/-! ## Any order -/

/-- **Order of composition.** Two sequences of steps that add the same fields, in any order and whatever
schemas these belonged to, have the same outcome. If two of the fields have one name, a field with such
a name is refused in both. Otherwise both end in one draft, and freezing it either finds the same
issues or hands out schemas that differ in their serial numbers only; their fields are those that were
added, in order of name, and belong to the new schema. -/
theorem composition_perm (name : String) (isEntity : Bool) (pluralName description : Option String)
    {steps other : List Step}
    (same : ((addedBy steps).map Field.disowned).Perm ((addedBy other).map Field.disowned)) :
    let start : Draft := { name, isEntity, pluralName, description }
    let names := (addedBy steps).map (·.name)
    (¬ names.Nodup → ∃ first second, 1 < names.count first ∧ 1 < names.count second ∧
      start.compose steps = .error (.duplicateField name first) ∧
      start.compose other = .error (.duplicateField name second)) ∧
    (names.Nodup → ∃ draft, start.compose steps = .ok draft ∧ start.compose other = .ok draft ∧
      ∀ serial serial',
        (∃ schema, draft.freeze serial = .ok schema ∧
          draft.freeze serial' = .ok { schema with serial := serial' } ∧
          schema.fields.Pairwise (fun a b => a.name < b.name) ∧
          schema.fields.Perm ((addedBy steps).map (Field.ownedBy name))) ∨
        ∃ issues, draft.freeze serial = .error (.invalid name issues) ∧
          draft.freeze serial' = .error (.invalid name issues)) := by
  intro start names
  have hnames : names.Perm ((addedBy other).map (·.name)) := by
    have := same.map (·.name)
    simpa [Function.comp_def, Field.disowned] using this
  have hentries : ((addedBy steps).map (entryOf name)).Perm ((addedBy other).map (entryOf name)) := by
    have := same.map (entryOf name)
    rwa [List.map_map, List.map_map] at this
  simp only [compose_eq]
  constructor
  · intro hn
    obtain ⟨first, hcount, hfirst⟩ := addFields_of_not_nodup start List.nodup_nil hn
    obtain ⟨second, hcount', hsecond⟩ := addFields_of_not_nodup start List.nodup_nil
      fun hn' => hn (hnames.nodup_iff.2 hn')
    exact ⟨first, second, hcount, (hnames.count_eq second).symm ▸ hcount', hfirst, hsecond⟩
  · intro hn
    obtain ⟨entries, hok, hperm⟩ := addFields_of_nodup start hn
    obtain ⟨entries', hok', hperm'⟩ := addFields_of_nodup start (hnames.nodup_iff.1 hn)
    have hcomposed {fields : List Field} {draft : Draft} (h : start.addFields fields = .ok draft) :
        draft.Composed fun _ => True :=
      (Composed.start name isEntity pluralName description).addFields (fun _ _ _ _ => trivial) h
    obtain rfl : entries = entries' := (hcomposed hok).ascending.eq_of_perm
      (hcomposed hok').ascending (hperm.trans (hentries.trans hperm'.symm))
    refine ⟨{ start with fields := entries }, hok, hok', fun serial serial' => ?_⟩
    refine (freeze_cases _ serial serial').imp_left fun ⟨hfreeze, hfreeze'⟩ =>
      ⟨_, hfreeze, hfreeze', (hcomposed hok).pairwise, ?_⟩
    have := hperm.map Prod.snd
    rwa [List.nil_append, List.map_map] at this

/-- A topic has a title and the fields of a category, which are merged first, or come one by one after
the title. -/
theorem composition_sample :
    let title := Field.scalar "title" .string
    let steps : List Step := [.merge Schema.Sample.category, .fields [title]]
    let other : List Step := [.fields [title], .fields Schema.Sample.category.fields.reverse]
    let start : Draft := { name := "Topic", isEntity := true }
    ((addedBy steps).map Field.disowned).Perm ((addedBy other).map Field.disowned) ∧
      ∃ draft schema, start.compose steps = .ok draft ∧ start.compose other = .ok draft ∧
        draft.freeze 0 = .ok schema ∧ schema.fields.Pairwise (fun a b => a.name < b.name) ∧
        schema.fields.Perm ((addedBy steps).map (Field.ownedBy "Topic")) := by
  intro title steps other start
  have same : ((addedBy steps).map Field.disowned).Perm ((addedBy other).map Field.disowned) := by
    decide
  have frozen : ((start.compose steps).bind (·.freeze 0)).isOk = true := by decide
  refine ⟨same, ?_⟩
  obtain ⟨-, hcomposed⟩ := composition_perm "Topic" true none none same
  obtain ⟨draft, hsteps, hother, hfreeze⟩ := hcomposed (by decide)
  rcases hfreeze 0 1 with ⟨schema, hok, -, hpair, hperm⟩ | ⟨issues, herror, -⟩
  · exact ⟨draft, schema, hsteps, hother, hok, hpair, hperm⟩
  · have hdraft : (draft.freeze 0).isOk = true := by rwa [hsteps] at frozen
    rw [herror] at hdraft
    cases hdraft

end Draft

end EntityModel
