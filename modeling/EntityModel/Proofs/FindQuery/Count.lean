import EntityModel.FindQuery.Reader
import EntityModel.Proofs.IssueTree
import EntityModel.Proofs.Keyed
import EntityModel.Proofs.Text

/-!
# Counts of a query

The size of a page and the documents to skip are counts. A count comes as a whole number, as digits
with blanks around them, or not at all, and every value that stands for the same number is read as the
same count. No spelling is too long: leading zeros do not matter, and digits beyond the range of counts
are refused, never cut off.

Results:
* `Count.ofDigits?_eq_some_iff`: the digits that are read as a count.
* `Count.ofJson_eq_ok_iff`: the values that are read as a count.
* `Count.ofJson_of_belowZero`: a whole number below zero is told apart from other faults.
* `Count.ofJson_padded`: blanks, a plus sign and leading zeros change no count.
* `FindQuery.ofMembers_eq_ok_iff`: a query is read when each of its keys is.
* `FindQuery.counts_read`: what a count does to the query that the other keys describe.
-/
namespace EntityModel

/-! ## Spellings -/

namespace Count

/-- At least one digit, and nothing else. -/
structure IsDecimal (digits : List Char) : Prop where
  nonempty : digits ≠ []
  digits : ∀ c ∈ digits, c.isDigit = true

/-- The number that a value stands for where a count is asked for. -/
inductive Denotes : Json → Nat → Prop
  | null : Denotes .null 0
  | int (n : Nat) : Denotes (.int n) n
  | plain {text : String} {digits : List Char} : IsDecimal digits →
      Text.trimChars text.toList = digits → Denotes (.str text) (Nat.ofDigitChars 10 digits 0)
  | plus {text : String} {digits : List Char} : IsDecimal digits →
      Text.trimChars text.toList = '+' :: digits → Denotes (.str text) (Nat.ofDigitChars 10 digits 0)

/-- The value is a whole number below zero, or the text of one. -/
inductive BelowZero : Json → Prop
  | int {n : Int} : n < 0 → BelowZero (.int n)
  | text {text : String} {digits : List Char} : IsDecimal digits →
      Text.trimChars text.toList = '-' :: digits → Nat.ofDigitChars 10 digits 0 ≠ 0 →
      BelowZero (.str text)

theorem isDecimal_iff {digits : List Char} :
    IsDecimal digits ↔ (digits.isEmpty || !digits.all Char.isDigit) = false := by
  simp only [Bool.or_eq_false_iff, List.isEmpty_eq_false_iff, Bool.not_eq_false', List.all_eq_true]
  exact ⟨fun h => ⟨h.nonempty, h.digits⟩, fun ⟨hn, hd⟩ => ⟨hn, hd⟩⟩

/-- No spelling of a number starts with a sign. -/
theorem IsDecimal.ne_cons {digits : List Char} (h : IsDecimal digits) {c : Char}
    (hc : c.isDigit = false) (rest : List Char) : digits ≠ c :: rest := by
  rintro rfl
  rw [h.digits c (List.mem_cons_self ..)] at hc
  cases hc

theorem ofDigits?_eq_some_iff {digits : List Char} {count : UInt64} :
    ofDigits? digits = some count ↔
      IsDecimal digits ∧ Nat.ofDigitChars 10 digits 0 = count.toNat := by
  have hlt : count.toNat < UInt64.size := count.toNat_lt_size
  unfold ofDigits?
  rw [isDecimal_iff]
  cases digits.isEmpty || !digits.all Char.isDigit with
  | true => simp
  | false =>
    simp only [Bool.false_eq_true, if_false, true_and]
    by_cases hn : Nat.ofDigitChars 10 digits 0 < UInt64.size
    · rw [if_pos hn, Option.some_inj, ← UInt64.toNat_inj]
      exact iff_of_eq (congrArg (· = count.toNat) (UInt64.toNat_ofNat_of_lt' hn))
    · rw [if_neg hn]
      simp only [reduceCtorEq, false_iff]
      omega

/-- A plus sign in front of the digits is passed over. -/
theorem ofPlainText?_eq_some_iff {cs : List Char} {count : UInt64} :
    ofPlainText? cs = some count ↔ ∃ digits, (cs = digits ∨ cs = '+' :: digits) ∧
      IsDecimal digits ∧ Nat.ofDigitChars 10 digits 0 = count.toNat := by
  have hplus : '+'.isDigit = false := rfl
  unfold ofPlainText?
  split
  · next digits =>
    rw [ofDigits?_eq_some_iff]
    constructor
    · exact fun h => ⟨digits, .inr rfl, h⟩
    · rintro ⟨other, rfl | h, hd, hn⟩
      · exact absurd rfl (hd.ne_cons hplus digits)
      · obtain ⟨-, rfl⟩ := List.cons.inj h
        exact ⟨hd, hn⟩
  · next hne =>
    rw [ofDigits?_eq_some_iff]
    constructor
    · exact fun h => ⟨cs, .inl rfl, h⟩
    · rintro ⟨other, rfl | rfl, hd, hn⟩
      · exact ⟨hd, hn⟩
      · exact absurd rfl (hne other)

theorem ofText_eq_ok_iff {text : String} {count : UInt64} :
    ofText text = .ok count ↔ ofPlainText? (Text.trimChars text.toList) = some count := by
  simp only [ofText]
  split
  · next found h => simp [h]
  · next h => split <;> simp [h]

/-- The values that are read as a count are those that stand for it. -/
theorem ofJson_eq_ok_iff {value : Json} {count : UInt64} :
    ofJson value = .ok count ↔ Denotes value count.toNat := by
  have hlt : count.toNat < UInt64.size := count.toNat_lt_size
  constructor
  · intro h
    cases value with
    | null =>
      obtain rfl : 0 = count := Except.ok.inj h
      exact .null
    | int n =>
      rw [ofJson] at h
      split at h
      · next hn =>
        obtain rfl : n.toNat.toUInt64 = count := Except.ok.inj h
        have hvalue : n.toNat.toUInt64.toNat = n.toNat := UInt64.toNat_ofNat_of_lt' (by omega)
        have hint : n = (n.toNat : Int) := by omega
        rw [hvalue, hint]
        exact .int _
      · cases h
    | str text =>
      rw [ofJson, ofText_eq_ok_iff, ofPlainText?_eq_some_iff] at h
      obtain ⟨digits, hcs | hcs, hd, hn⟩ := h
      · exact hn ▸ .plain hd hcs
      · exact hn ▸ .plus hd hcs
    | bool _ | float _ | arr _ | obj _ => cases h
  · intro h
    generalize hn : count.toNat = n at h
    cases h with
    | null =>
      obtain rfl : count = 0 := UInt64.toNat_inj.1 hn
      rfl
    | int n =>
      rw [ofJson, if_pos (by omega), ← hn]
      simp
    | plain hd hcs => exact ofText_eq_ok_iff.2 (ofPlainText?_eq_some_iff.2 ⟨_, .inl hcs, hd, hn.symm⟩)
    | plus hd hcs => exact ofText_eq_ok_iff.2 (ofPlainText?_eq_some_iff.2 ⟨_, .inr hcs, hd, hn.symm⟩)

/-! ## Numbers below zero -/

/-- Digits are read as the whole number that they spell, with the sign before them. -/
theorem unsigned?_of_isDecimal {digits : List Char} (h : IsDecimal digits) (negative : Bool) :
    Text.Numeral.unsigned? negative digits
      = some (.finite negative (Nat.ofDigitChars 10 digits 0) 0) := by
  have hlower : digits.map Char.toLower = digits := by
    have hsame : ∀ c ∈ digits, c.toLower = id c := fun c hc =>
      (Text.toLower_eq_self_iff c).2 (Text.isUpper_of_isDigit (h.digits c hc))
    rw [List.map_congr_left hsame, List.map_id]
  have htake : (digits ++ []).takeWhile Char.isDigit = digits := Text.takeWhile_exact h.digits (by simp)
  have hdrop : (digits ++ []).dropWhile Char.isDigit = [] := Text.dropWhile_exact h.digits (by simp)
  rw [List.append_nil] at htake hdrop
  have hsome : digits.isEmpty = false := List.isEmpty_eq_false_iff.2 h.nonempty
  have hinf : ∀ rest, digits ≠ 'i' :: rest := h.ne_cons rfl
  have hnan : ∀ rest, digits ≠ 'n' :: rest := h.ne_cons rfl
  simp [Text.Numeral.unsigned?, hlower, htake, hdrop, hsome, hinf, hnan, Text.Numeral.exponent?]

/-- A whole number other than zero has a nearest double other than zero. -/
theorem isVisible_whole {n : Nat} (h : n ≠ 0) : Text.Numeral.isVisible n 0 = true := by
  have hpos : 0 < (Nat.toDigits 10 n).length := Nat.length_toDigits_pos
  simp only [Text.Numeral.isVisible]
  rw [if_neg h, if_pos]
  omega

/-- A whole number below zero is told apart from other faults. -/
theorem ofJson_of_belowZero {value : Json} (h : BelowZero value) :
    ofJson value = .error .negative := by
  cases h with
  | int hn =>
    rw [ofJson, if_neg (by omega), decide_eq_true hn]
    rfl
  | @text text digits hd hcs hn =>
    have hplain : ofPlainText? ('-' :: digits) = none := by
      rw [Option.eq_none_iff_forall_ne_some]
      intro count hc
      obtain ⟨other, rfl | hp, ho, -⟩ := ofPlainText?_eq_some_iff.1 hc
      · exact ho.ne_cons (show '-'.isDigit = false from rfl) digits rfl
      · cases hp
    have hnumeral : Text.Numeral.parse? ('-' :: digits)
        = some (.finite true (Nat.ofDigitChars 10 digits 0) 0) := unsigned?_of_isDecimal hd true
    simp [ofJson, ofText, hcs, hplain, hnumeral, Text.Numeral.isNegative, isVisible_whole hn,
      Fault.ofNumber]

/-! ## Spellings of one number -/

/-- Blanks around a number, a plus sign and zeros in front of it change no count. -/
theorem ofJson_padded (count : UInt64) {front sign back : List Char}
    (hfront : ∀ c ∈ front, Text.isBlank c = true) (hback : ∀ c ∈ back, Text.isBlank c = true)
    (hsign : sign = [] ∨ sign = ['+']) (zeros : Nat) :
    ofJson (.str (String.ofList (front ++ (sign ++ (List.replicate zeros '0'
      ++ Nat.toDigits 10 count.toNat)) ++ back))) = .ok count := by
  generalize hdigits : List.replicate zeros '0' ++ Nat.toDigits 10 count.toNat = digits
  have hdecimal : IsDecimal digits := by
    subst hdigits
    refine ⟨List.append_ne_nil_of_right_ne_nil _ Nat.toDigits_ne_nil, fun c hc => ?_⟩
    rcases List.mem_append.1 hc with hc | hc
    · obtain rfl := List.eq_of_mem_replicate hc
      rfl
    · exact Nat.isDigit_of_mem_toDigits (by decide) (by decide) hc
  have hvalue : Nat.ofDigitChars 10 digits 0 = count.toNat := by
    rw [← hdigits, Nat.ofDigitChars_append, Nat.ofDigitChars_replicate_zero, Nat.mul_zero,
      Nat.ofDigitChars_ten_toDigits]
  have hblank : ∀ c ∈ sign ++ digits, Text.isBlank c = false := by
    intro c hc
    rcases List.mem_append.1 hc with hc | hc
    · rcases hsign with rfl | rfl
      · cases hc
      · obtain rfl := List.mem_singleton.1 hc
        rfl
    · exact Text.isBlank_of_isDigit (hdecimal.digits c hc)
  have htrim : Text.trimChars (front ++ (sign ++ digits) ++ back) = sign ++ digits :=
    Text.trimChars_padded hfront hback hblank
      (List.append_ne_nil_of_right_ne_nil _ hdecimal.nonempty)
  rw [ofJson_eq_ok_iff, ← hvalue]
  rcases hsign with rfl | rfl
  · exact .plain hdecimal (by simpa using htrim)
  · exact .plus hdecimal (by simpa using htrim)

end Count

/-! ## Keys of a query -/

namespace FindQuery

/-- A key of a query that holds a count. -/
inductive CountKey where
  | top
  | skip

/-- The key. -/
def CountKey.name : CountKey → String
  | top => "top"
  | skip => "skip"

/-- The query with another count under the key. -/
def CountKey.set (count : UInt64) (query : FindQuery) : CountKey → FindQuery
  | top => { query with top := count }
  | skip => { query with skip := count }

theorem readCount_of_ok {value : Json} {count : UInt64} (h : Count.ofJson value = .ok count) :
    readCount value = .ok count := by
  rw [readCount, h]
  rfl

theorem readCount_of_error {value : Json} {fault : Count.Fault}
    (h : Count.ofJson value = .error fault) : readCount value = .error fault.message := by
  rw [readCount, h]
  rfl

theorem isEmpty_report {α : Type} (key : String) (reading : Except String α) (issues : IssueTree) :
    (report key reading issues).isEmpty = (issues.isEmpty && reading.toBool) := by
  cases reading with
  | ok value => simp [report, Except.toBool]
  | error message => simp [report, Except.toBool, IssueTree.isEmpty_addFor]

theorem eq_ok_of_toBool {α : Type} (fallback : α) {reading : Except String α}
    (h : reading.toBool = true) : reading = .ok (valueOr fallback reading) := by
  cases reading with
  | ok value => rfl
  | error message => cases h

/-- A query is read when each of its keys is. -/
theorem ofMembers_eq_ok_iff {members : Members} {query : FindQuery} :
    ofMembers members = .ok query ↔ readCount (valueAt members "top") = .ok query.top ∧
      readCount (valueAt members "skip") = .ok query.skip ∧
      readSort (valueAt members "sortBy") = .ok query.sortBy ∧
      readFilter (valueAt members "filterBy") = .ok query.filter ∧
      readSwitch (valueAt members "populate") = .ok query.populate := by
  constructor
  · intro h
    simp only [ofMembers, isEmpty_report, Bool.and_eq_true] at h
    split at h
    · next hread =>
      obtain ⟨⟨⟨⟨⟨-, ht⟩, hs⟩, ho⟩, hf⟩, hp⟩ := hread
      cases h
      exact ⟨eq_ok_of_toBool 0 ht, eq_ok_of_toBool 0 hs, eq_ok_of_toBool none ho,
        eq_ok_of_toBool [] hf, eq_ok_of_toBool true hp⟩
    · cases h
  · rintro ⟨ht, hs, ho, hf, hp⟩
    rw [ofMembers, ht, hs, ho, hf, hp]
    rfl

/-- What the other keys of an object describe, and a reading of one count, make up the whole. -/
theorem ofMembers_of_rest (key : CountKey) {members : Members} {query : FindQuery}
    (valid : ofMembers (Keyed.erase key.name members) = .ok query) :
    ofMembers members = match readCount (valueAt members key.name) with
      | .ok count => .ok (key.set count query)
      | .error message => .error (.invalid ⟨[], [(key.name, ⟨[message], []⟩)]⟩) := by
  have hother {other : String} (h : other ≠ key.name) :
      valueAt (Keyed.erase key.name members) other = valueAt members other := by
    rw [valueAt, valueAt, Keyed.get?_erase_of_ne h]
  obtain ⟨ht, hs, ho, hf, hp⟩ := ofMembers_eq_ok_iff.1 valid
  rw [hother (by cases key <;> decide)] at ho hf hp
  cases key with
  | top =>
    rw [hother (by decide)] at hs
    rw [ofMembers, hs, ho, hf, hp, CountKey.name]
    cases readCount (valueAt members "top") <;> rfl
  | skip =>
    rw [hother (by decide)] at ht
    rw [ofMembers, ht, ho, hf, hp, CountKey.name]
    cases readCount (valueAt members "skip") <;> rfl

/-- Values that are read as the same count make no difference to a query. -/
theorem ofMembers_insert_congr (key : CountKey) (members : Members) {a b : Json}
    (h : readCount a = readCount b) :
    ofMembers (Keyed.insert key.name a members) = ofMembers (Keyed.insert key.name b members) := by
  have hself (value : Json) : valueAt (Keyed.insert key.name value members) key.name = value := by
    rw [valueAt, Keyed.get?_insert_self]
    rfl
  have hother {other : String} (h : other ≠ key.name) (value : Json) :
      valueAt (Keyed.insert key.name value members) other = valueAt members other := by
    rw [valueAt, valueAt, Keyed.get?_insert_of_ne h]
  have hrest : "sortBy" ≠ key.name ∧ "filterBy" ≠ key.name ∧ "populate" ≠ key.name := by
    cases key <;> decide
  obtain ⟨ho, hf, hp⟩ := hrest
  cases key with
  | top =>
    have hs : "skip" ≠ CountKey.top.name := by decide
    have htop (value : Json) : valueAt (Keyed.insert CountKey.top.name value members) "top" = value :=
      hself value
    simp only [ofMembers, htop, hother hs, hother ho, hother hf, hother hp, h]
  | skip =>
    have ht : "top" ≠ CountKey.skip.name := by decide
    have hskip (value : Json) :
        valueAt (Keyed.insert CountKey.skip.name value members) "skip" = value := hself value
    simp only [ofMembers, hskip, hother ht, hother ho, hother hf, hother hp, h]

/-- **Counts.** In an object that describes a query without it, the size of a page, or the number of
documents to skip, is read exactly when its value stands for a number below `2 ^ 64`, and becomes this
number. Any other value is reported by one message, under its key, which tells a whole number below
zero from other faults. Blanks around the text of a number, a plus sign and zeros in front of it make no
difference. -/
theorem counts_read (key : CountKey) {members : Members} {query : FindQuery}
    (valid : ofJson (.obj (Keyed.erase key.name members)) = .ok query) :
    (∀ found, ofJson (.obj members) = .ok found ↔ ∃ count : UInt64,
      Count.Denotes (valueAt members key.name) count.toNat ∧ found = key.set count query) ∧
    (∀ cause, ofJson (.obj members) = .error cause →
      ∃ fault : Count.Fault, cause = .invalid ⟨[], [(key.name, ⟨[fault.message], []⟩)]⟩) ∧
    (Count.BelowZero (valueAt members key.name) → ofJson (.obj members)
      = .error (.invalid ⟨[], [(key.name, ⟨["must be non-negative"], []⟩)]⟩)) ∧
    ∀ (count : UInt64) (front sign back : List Char) (zeros : Nat),
      (∀ c ∈ front, Text.isBlank c = true) → (∀ c ∈ back, Text.isBlank c = true) →
      (sign = [] ∨ sign = ['+']) →
      ofJson (.obj (Keyed.insert key.name (.str (String.ofList (front ++ (sign ++
          (List.replicate zeros '0' ++ Nat.toDigits 10 count.toNat)) ++ back))) members))
        = ofJson (.obj (Keyed.insert key.name (.int count.toNat) members)) := by
  have hread : ofJson (.obj members) = _ := ofMembers_of_rest key valid
  generalize valueAt members key.name = value at hread ⊢
  refine ⟨?_, ?_, ?_, ?_⟩
  · intro found
    simp only [← Count.ofJson_eq_ok_iff]
    cases hv : Count.ofJson value with
    | ok count =>
      rw [hread, readCount_of_ok hv]
      simp [eq_comm]
    | error fault =>
      rw [hread, readCount_of_error hv]
      simp
  · intro cause h
    cases hv : Count.ofJson value with
    | ok count =>
      rw [hread, readCount_of_ok hv] at h
      cases h
    | error fault =>
      rw [hread, readCount_of_error hv] at h
      exact ⟨fault, (Except.error.inj h).symm⟩
  · intro hneg
    rw [hread, readCount_of_error (Count.ofJson_of_belowZero hneg)]
    rfl
  · intro count front sign back zeros hfront hback hsign
    refine ofMembers_insert_congr key members ?_
    rw [readCount, readCount, Count.ofJson_padded count hfront hback hsign,
      Count.ofJson_eq_ok_iff.2 (.int _)]

/-- The greatest count, as a text with blanks, a plus sign and zeros, and a text that is longer than
any count and below zero. -/
theorem counts_read_sample :
    ofJson (.obj [("populate", .bool false), ("top", .str " \u2003+0018446744073709551615\n")])
        = .ok { top := 18446744073709551615, populate := false } ∧
      ofJson (.obj [("skip", .str "-00000000000000000000000000000001 "), ("top", .int 3)])
        = .error (.invalid ⟨[], [("skip", ⟨["must be non-negative"], []⟩)]⟩) := by
  have htop : ofJson (.obj (Keyed.erase CountKey.top.name [("populate", .bool false),
      ("top", .str " \u2003+0018446744073709551615\n")])) = .ok { populate := false } := rfl
  have hskip : ofJson (.obj (Keyed.erase CountKey.skip.name
      [("skip", .str "-00000000000000000000000000000001 "), ("top", .int 3)])) = .ok { top := 3 } := rfl
  have hplus : Count.IsDecimal "0018446744073709551615".toList := Count.isDecimal_iff.2 rfl
  have hminus : Count.IsDecimal "00000000000000000000000000000001".toList :=
    Count.isDecimal_iff.2 rfl
  have hgreatest : Count.Denotes (.str " \u2003+0018446744073709551615\n") 18446744073709551615 :=
    .plus hplus rfl
  have hnegative : Count.BelowZero (.str "-00000000000000000000000000000001 ") :=
    .text hminus rfl (by decide)
  exact ⟨((counts_read .top htop).1 _).2 ⟨18446744073709551615, hgreatest, rfl⟩,
    (counts_read .skip hskip).2.2.1 hnegative⟩

end FindQuery

end EntityModel
