import EntityModel.Proofs.FindQuery.Count

/-!
# Keys of a query, one by one

A query is read key by key. The readings share nothing but the tree in which they file what they find,
and each takes its default when it finds something: so a key fares in an object as it would alone, no
finding hides another, and what stands under other keys is never looked at.

Results:
* `ofMembers_eq_error_iff`: an object is no query when some key has a fault, and all faults are filed.
* `ofMembers_only_eq_error_iff`: the same for an object with one key.
* `keys_judged_apart`: an object is judged by its single keys.
-/
namespace EntityModel.FindQuery

/-- A key of a query. -/
inductive Key where
  | top
  | skip
  | sortBy
  | filterBy
  | populate
deriving DecidableEq, Repr

/-- The message of a reading that failed. -/
def complaints {α : Type} : Except String α → List String
  | .ok _ => []
  | .error message => [message]

namespace Key

/-- The key as it is written. -/
def name : Key → String
  | top => "top"
  | skip => "skip"
  | sortBy => "sortBy"
  | filterBy => "filterBy"
  | populate => "populate"

/-- All keys, in the order in which they are read. -/
def all : List Key := [top, skip, sortBy, filterBy, populate]

/-- What is wrong with a value under the key. -/
def faults (value : Json) : Key → List String
  | top | skip => complaints (readCount value)
  | sortBy => complaints (readSort value)
  | filterBy => complaints (readFilter value)
  | populate => complaints (readSwitch value)

/-- A value under the key is read as what the query has there. -/
def Reads (value : Json) (query : FindQuery) : Key → Prop
  | top => readCount value = .ok query.top
  | skip => readCount value = .ok query.skip
  | sortBy => readSort value = .ok query.sortBy
  | filterBy => readFilter value = .ok query.filter
  | populate => readSwitch value = .ok query.populate

/-- The query that has only what another one has under the key, and is the default elsewhere. -/
def part (query : FindQuery) : Key → FindQuery
  | top => { top := query.top }
  | skip => { skip := query.skip }
  | sortBy => { sortBy := query.sortBy }
  | filterBy => { filter := query.filter }
  | populate => { populate := query.populate }

/-- The query that has under each key what the query for this key has. -/
def assemble (parts : Key → FindQuery) : FindQuery where
  top := (parts top).top
  skip := (parts skip).skip
  sortBy := (parts sortBy).sortBy
  filter := (parts filterBy).filter
  populate := (parts populate).populate

theorem mem_all (key : Key) : key ∈ all := by cases key <;> decide

theorem name_injective {a b : Key} (h : a.name = b.name) : a = b := by
  cases a <;> cases b <;> first | rfl | exact absurd h (by decide)

theorem names_nodup : (all.map name).Nodup := by decide

/-- No key is missed when it is `null`. -/
theorem faults_null (key : Key) : key.faults .null = [] := by cases key <;> rfl

/-- One message is enough for a key. -/
theorem faults_cases (key : Key) (value : Json) :
    key.faults value = [] ∨ ∃ message, key.faults value = [message] := by
  have hcases {α : Type} (reading : Except String α) :
      complaints reading = [] ∨ ∃ message, complaints reading = [message] := by
    cases reading with
    | ok value => exact .inl rfl
    | error message => exact .inr ⟨message, rfl⟩
  cases key <;> exact hcases _

theorem reads_part (key : Key) {value : Json} {query : FindQuery} :
    key.Reads value (key.part query) ↔ key.Reads value query := by
  cases key <;> rfl

/-- The part for one key has the default under the others, which `null` stands for. -/
theorem reads_null {key other : Key} (h : other ≠ key) (query : FindQuery) :
    other.Reads .null (key.part query) := by
  cases key <;> cases other <;> first | rfl | exact absurd rfl h

theorem reads_assemble (key : Key) {value : Json} {parts : Key → FindQuery} :
    key.Reads value (assemble parts) ↔ key.Reads value (parts key) := by
  cases key <;> rfl

end Key

/-! ## Faults of an object -/

/-- Every fault of an object, under its key. -/
def issues (members : Members) : IssueTree :=
  Key.all.foldl (fun tree key => tree.addAllFor key.name (key.faults (valueAt members key.name)))
    IssueTree.empty

theorem report_eq {α : Type} (key : String) (reading : Except String α) (tree : IssueTree) :
    report key reading tree = tree.addAllFor key (complaints reading) := by
  cases reading <;> rfl

theorem issues_isEmpty_iff (members : Members) :
    (issues members).isEmpty = true ↔ ∀ key : Key, key.faults (valueAt members key.name) = [] := by
  rw [issues, IssueTree.isEmpty_foldl_addAllFor]
  exact ⟨fun h key => h.2 key key.mem_all, fun h => ⟨rfl, fun key _ => h key⟩⟩

/-- An object is no query when some key has a fault, and all faults are filed. -/
theorem ofMembers_eq_error_iff {members : Members} {cause : Error} :
    ofMembers members = .error cause ↔ cause = .invalid (issues members) ∧
      ∃ key : Key, key.faults (valueAt members key.name) ≠ [] := by
  have hissues : report "populate" (readSwitch (valueAt members "populate"))
      (report "filterBy" (readFilter (valueAt members "filterBy"))
      (report "sortBy" (readSort (valueAt members "sortBy"))
      (report "skip" (readCount (valueAt members "skip"))
      (report "top" (readCount (valueAt members "top")) IssueTree.empty)))) = issues members := by
    simp only [report_eq]
    rfl
  have hempty := issues_isEmpty_iff members
  simp only [ofMembers, hissues]
  split
  · next h => simp [hempty.1 h]
  · next h =>
    rw [hempty, Classical.not_forall] at h
    simpa [h] using eq_comm

/-! ## Objects with one key -/

/-- The object that has only this key of another one, if it has it. -/
def only (key : Key) (members : Members) : Members :=
  match Keyed.get? key.name members with
  | some value => [(key.name, value)]
  | none => []

theorem only_of_get? {key : Key} {members : Members} {value : Json}
    (h : Keyed.get? key.name members = some value) : only key members = [(key.name, value)] := by
  rw [only, h]

theorem valueAt_only_self (key : Key) (members : Members) :
    valueAt (only key members) key.name = valueAt members key.name := by
  unfold only
  cases h : Keyed.get? key.name members <;> simp [valueAt, Keyed.get?, h]

theorem valueAt_only_of_ne {key other : Key} (h : other ≠ key) (members : Members) :
    valueAt (only key members) other.name = .null := by
  have hname : key.name ≠ other.name := fun he => h (Key.name_injective he.symm)
  unfold only
  cases Keyed.get? key.name members <;> simp [valueAt, Keyed.get?, hname]

/-- A key fares alone as it does among others. -/
theorem faults_only (key other : Key) (members : Members) :
    other.faults (valueAt (only key members) other.name)
      = if other = key then key.faults (valueAt members key.name) else [] := by
  by_cases h : other = key
  · rw [if_pos h, h, valueAt_only_self]
  · rw [if_neg h, valueAt_only_of_ne h, Key.faults_null]

/-- What is filed for an object with one key. -/
theorem issues_only {key : Key} {members : Members} {message : String}
    (h : key.faults (valueAt members key.name) = [message]) :
    issues (only key members) = ⟨[], [(key.name, ⟨[message], []⟩)]⟩ := by
  simp only [issues, faults_only, h]
  cases key <;> rfl

/-- An object with one key is no query exactly when the key has a fault, which is then reported. -/
theorem ofMembers_only_eq_error_iff {key : Key} {members : Members} {cause : Error} :
    ofMembers (only key members) = .error cause ↔ ∃ message,
      key.faults (valueAt members key.name) = [message] ∧
        cause = .invalid ⟨[], [(key.name, ⟨[message], []⟩)]⟩ := by
  rw [ofMembers_eq_error_iff]
  constructor
  · rintro ⟨rfl, other, hother⟩
    rw [faults_only] at hother
    rcases key.faults_cases (valueAt members key.name) with hnone | ⟨message, hmessage⟩
    · simp [hnone] at hother
    · exact ⟨message, hmessage, by rw [issues_only hmessage]⟩
  · rintro ⟨message, hmessage, rfl⟩
    refine ⟨by rw [issues_only hmessage], key, ?_⟩
    simp [faults_only, hmessage]

theorem ofMembers_eq_ok_iff_reads {members : Members} {query : FindQuery} :
    ofMembers members = .ok query ↔ ∀ key : Key, key.Reads (valueAt members key.name) query := by
  rw [ofMembers_eq_ok_iff]
  constructor
  · rintro ⟨ht, hs, ho, hf, hp⟩ key
    cases key <;> assumption
  · intro h
    exact ⟨h .top, h .skip, h .sortBy, h .filterBy, h .populate⟩

/-- Each key of a query can be read alone. -/
theorem ofMembers_only_part {members : Members} {query : FindQuery}
    (h : ofMembers members = .ok query) (key : Key) :
    ofMembers (only key members) = .ok (key.part query) := by
  rw [ofMembers_eq_ok_iff_reads] at h ⊢
  intro other
  by_cases he : other = key
  · rw [he, valueAt_only_self, Key.reads_part]
    exact h key
  · rw [valueAt_only_of_ne he]
    exact Key.reads_null he query

/-- Keys that can be read alone make up a query. -/
theorem ofMembers_assemble {members : Members} {parts : Key → FindQuery}
    (h : ∀ key, ofMembers (only key members) = .ok (parts key)) :
    ofMembers members = .ok (Key.assemble parts) := by
  rw [ofMembers_eq_ok_iff_reads]
  intro key
  have hread := ofMembers_eq_ok_iff_reads.1 (h key) key
  rw [valueAt_only_self] at hread
  exact key.reads_assemble.2 hread

/-- An object without the key is no fault of it. -/
theorem exists_value_of_fault {key : Key} {members : Members}
    (h : key.faults (valueAt members key.name) ≠ []) :
    ∃ value, Keyed.get? key.name members = some value := by
  cases hv : Keyed.get? key.name members with
  | some value => exact ⟨value, rfl⟩
  | none =>
    rw [valueAt, hv] at h
    exact absurd key.faults_null h

/-! ## Whole objects -/

/-- **Keys.** An object is no query exactly when, for some key that it has, the object with this key
alone is none. Then nothing is said about the object as a whole, and the keys that fail alone are
reported, each with the one message that it has alone. An object is a query exactly when all its keys
alone are, and has under each key what this key alone gives, which is the default for a key that it does
not have. Objects with the same values under the keys, a missing one being `null`, are judged alike,
whatever else they have. -/
theorem keys_judged_apart (members : Members) :
    ((∃ cause, ofJson (.obj members) = .error cause) ↔ ∃ (key : Key) (value : Json),
      Keyed.get? key.name members = some value ∧
        ∃ cause, ofJson (.obj [(key.name, value)]) = .error cause) ∧
    (∀ cause, ofJson (.obj members) = .error cause → ∃ children,
      cause = .invalid ⟨[], children⟩ ∧ Keyed.Ascending children ∧
        ∀ name below, (name, below) ∈ children ↔ ∃ (key : Key) (value : Json) (message : String),
          name = key.name ∧ below = ⟨[message], []⟩ ∧ Keyed.get? key.name members = some value ∧
            ofJson (.obj [(key.name, value)]) = .error (.invalid ⟨[], [(name, below)]⟩)) ∧
    (∀ query, ofJson (.obj members) = .ok query ↔ ∃ parts : Key → FindQuery,
      (∀ key, ofJson (.obj (only key members)) = .ok (parts key)) ∧
        query = ⟨(parts .top).top, (parts .skip).skip, (parts .sortBy).sortBy,
          (parts .filterBy).filter, (parts .populate).populate⟩) ∧
    ∀ others : Members, (∀ key : Key, (Keyed.get? key.name others).getD .null
        = (Keyed.get? key.name members).getD .null) →
      ofJson (.obj others) = ofJson (.obj members) := by
  have halone {key : Key} {value : Json} (hv : Keyed.get? key.name members = some value)
      {cause : Error} : ofJson (.obj [(key.name, value)]) = .error cause ↔ ∃ message,
        key.faults (valueAt members key.name) = [message] ∧
          cause = .invalid ⟨[], [(key.name, ⟨[message], []⟩)]⟩ := by
    rw [← only_of_get? hv]
    exact ofMembers_only_eq_error_iff
  refine ⟨?_, ?_, ?_, ?_⟩
  · constructor
    · rintro ⟨cause, h⟩
      obtain ⟨-, key, hfault⟩ := ofMembers_eq_error_iff.1 h
      obtain ⟨value, hv⟩ := exists_value_of_fault hfault
      obtain ⟨message, hmessage⟩ := (key.faults_cases _).resolve_left hfault
      exact ⟨key, value, hv, _, (halone hv).2 ⟨message, hmessage, rfl⟩⟩
    · rintro ⟨key, value, hv, cause, h⟩
      obtain ⟨message, hmessage, -⟩ := (halone hv).1 h
      exact ⟨_, ofMembers_eq_error_iff.2 ⟨rfl, key, by simp [hmessage]⟩⟩
  · intro cause h
    obtain ⟨rfl, -⟩ := ofMembers_eq_error_iff.1 h
    obtain ⟨children, hissues, hascending, hmem⟩ := IssueTree.foldl_addAllFor_empty Key.name
      (fun key => key.faults (valueAt members key.name)) Key.names_nodup
    refine ⟨children, congrArg Error.invalid hissues, hascending, fun name below => ?_⟩
    rw [hmem]
    constructor
    · rintro ⟨key, -, rfl, hfault, rfl⟩
      obtain ⟨value, hv⟩ := exists_value_of_fault hfault
      obtain ⟨message, hmessage⟩ := (key.faults_cases _).resolve_left hfault
      rw [hmessage]
      exact ⟨key, value, message, rfl, rfl, hv, (halone hv).2 ⟨message, hmessage, rfl⟩⟩
    · rintro ⟨key, value, message, rfl, rfl, hv, h⟩
      obtain ⟨found, hfound, heq⟩ := (halone hv).1 h
      simp only [Error.invalid.injEq, IssueTree.mk.injEq, List.cons.injEq, Prod.mk.injEq, and_true,
        true_and] at heq
      exact ⟨key, key.mem_all, rfl, by simp [hfound], by rw [hfound, heq]⟩
  · intro query
    constructor
    · intro h
      exact ⟨fun key => key.part query, ofMembers_only_part h, rfl⟩
    · rintro ⟨parts, h, rfl⟩
      exact ofMembers_assemble h
  · intro others h
    have htop : valueAt others "top" = valueAt members "top" := h .top
    have hskip : valueAt others "skip" = valueAt members "skip" := h .skip
    have hsort : valueAt others "sortBy" = valueAt members "sortBy" := h .sortBy
    have hfilter : valueAt others "filterBy" = valueAt members "filterBy" := h .filterBy
    have hswitch : valueAt others "populate" = valueAt members "populate" := h .populate
    simp only [ofJson, ofMembers, htop, hskip, hsort, hfilter, hswitch]

/-- Three keys with a fault, one that is `null`, one that is no key of a query, and one that is sound. -/
def mixed : Members := [("filterBy", .str "[]"), ("limit", .int (-1)), ("populate", .null),
  ("skip", .int (-1)), ("sortBy", .arr []), ("top", .str " 7")]

/-- The faults are reported together, each as for its key alone. Without them the rest is judged by its
one key. -/
theorem keys_judged_apart_sample :
    ofJson (.obj mixed) = .error (.invalid ⟨[], [("filterBy", ⟨["must be an object"], []⟩),
        ("skip", ⟨["must be non-negative"], []⟩), ("sortBy", ⟨["must be a string"], []⟩)]⟩) ∧
      ofJson (.obj [("sortBy", .arr [])])
        = .error (.invalid ⟨[], [("sortBy", ⟨["must be a string"], []⟩)]⟩) ∧
      ofJson (.obj [("limit", .int (-1)), ("populate", .null), ("top", .str " 7")])
        = ofJson (.obj [("top", .str " 7")]) := by
  have hmixed : ofJson (.obj mixed) = .error (.invalid ⟨[],
      [("filterBy", ⟨["must be an object"], []⟩), ("skip", ⟨["must be non-negative"], []⟩),
        ("sortBy", ⟨["must be a string"], []⟩)]⟩) := rfl
  refine ⟨hmixed, ?_, ?_⟩
  · obtain ⟨children, hcause, -, hmem⟩ := (keys_judged_apart mixed).2.1 _ hmixed
    cases hcause
    obtain ⟨key, value, message, hname, -, hv, halone⟩ :=
      (hmem "sortBy" ⟨["must be a string"], []⟩).1 (by simp)
    obtain rfl : key = .sortBy := Key.name_injective hname.symm
    cases hv
    exact halone
  · exact (keys_judged_apart [("top", .str " 7")]).2.2.2 _ fun key => by cases key <;> rfl

end EntityModel.FindQuery
