import EntityModel.Proofs.Name

/-!
# The grammar of schema names

A schema may have a name that Pascal case leaves as it is. The conversion cuts the name into words and
sets the case of each character by its place in its word. Whether a word starts at a character is told
from the one before it, the character itself and the one behind it, so the names that stay are told by
rules for neighbours alone: a lower-case letter never starts a word, and an upper-case one always does.

Results:
* `pascalFrom_eq_self_iff`: the characters that the conversion leaves as they are, one by one.
* `caseFits_iff`: the rules for a character and the one before it.
* `cased_iff`, `pascal_eq_self_iff`: the names that stay, by these rules.
* `schemaNameFault_iff_grammar`: what a schema may be called, without the conversion.
-/
namespace EntityModel.Name

/-! ## Characters that stay -/

/-- A character has the case that its place in a word asks for: upper at the start, lower elsewhere. -/
def CaseFits (start : Bool) (c : Char) : Prop :=
  if start then c.isLower = false else c.isUpper = false

/-- No character separates words, and each has the case that its place asks for, where the first starts
a word iff `start`. -/
def Cased (start : Bool) : List Char → Prop
  | [] => True
  | c :: rest => isSeparator c = false ∧ CaseFits start c ∧ Cased (wordEndsBefore c rest) rest

/-- The conversion leaves just those characters as they are. -/
theorem pascalFrom_eq_self_iff (start : Bool) (cs : List Char) :
    pascalFrom start cs = cs ↔ Cased start cs := by
  induction cs generalizing start with
  | nil => simp [pascalFrom, Cased]
  | cons c rest ih =>
    rw [pascalFrom, Cased]
    cases hsep : isSeparator c with
    | true =>
      -- a separator is dropped, so what comes out is shorter
      have hlen := pascalFrom_length_le true rest
      simp only [if_true, Bool.true_eq_false, false_and, iff_false]
      intro h
      have := congrArg List.length h
      simp only [List.length_cons] at this
      omega
    | false =>
      simp only [Bool.false_eq_true, if_false, true_and, List.cons.injEq, ih]
      refine and_congr_left' ?_
      cases start
      · exact Text.toLower_eq_self_iff c
      · exact Text.toUpper_eq_self_iff c

/-! ## Rules for neighbours -/

/-- What is asked of `b` behind `a` and in front of `after`. -/
structure Follows (a b : Char) (after : Option Char) : Prop where
  digit : a.isDigit = true → b.isLower = false
  upper : b.isUpper = true → a.isLower = true ∨ a.isDigit = true ∨
    a.isUpper = true ∧ after.any Char.isLower = true

/-- Behind `a`, the case of `b` fits its place exactly when the rules are kept. -/
theorem caseFits_iff (a b : Char) (after : Option Char) :
    CaseFits (wordEndsBetween a b after) b ↔ Follows a b after := by
  have hrules : Follows a b after ↔ (a.isDigit = true → b.isLower = false) ∧
      (b.isUpper = true → a.isLower = true ∨ a.isDigit = true ∨
        a.isUpper = true ∧ after.any Char.isLower = true) :=
    ⟨fun h => ⟨h.digit, h.upper⟩, fun h => ⟨h.1, h.2⟩⟩
  rw [hrules, CaseFits, wordEndsBetween]
  cases hlower : b.isLower with
  | true =>
    -- a word starts at a lower-case letter only behind a digit
    simp [Text.isUpper_of_isLower hlower, Text.isDigit_of_isLower hlower]
  | false =>
    cases hupper : b.isUpper with
    | true => simp [Text.isDigit_of_isUpper hupper, or_assoc]
    | false => simp

/-- The grammar of Pascal case: no separators, no lower-case letter at the start, and the rules for
neighbours everywhere else. -/
structure IsPascal (cs : List Char) : Prop where
  joined : ∀ c ∈ cs, c ≠ '_' ∧ c ≠ '-' ∧ c ≠ ' '
  head : ∀ c, cs.head? = some c → c.isLower = false
  follows : ∀ front a b back, cs = front ++ a :: b :: back → Follows a b back.head?

theorem isSeparator_eq_false_iff (c : Char) :
    isSeparator c = false ↔ c ≠ '_' ∧ c ≠ '-' ∧ c ≠ ' ' := by
  simp [isSeparator, and_assoc]

/-- The neighbours in a text are its first two characters and the neighbours behind the first. -/
theorem forall_neighbours_cons_iff {p : Char → Char → List Char → Prop} {c : Char} {rest : List Char} :
    (∀ front a b back, c :: rest = front ++ a :: b :: back → p a b back) ↔
      (∀ b back, rest = b :: back → p c b back) ∧
        ∀ front a b back, rest = front ++ a :: b :: back → p a b back := by
  constructor
  · intro h
    exact ⟨fun b back hr => h [] c b back (by rw [hr]; rfl),
      fun front a b back hr => h (c :: front) a b back (by rw [hr]; rfl)⟩
  · rintro ⟨hfirst, hrest⟩ front a b back h
    cases front with
    | nil =>
      obtain ⟨rfl, hr⟩ := List.cons.inj h
      exact hfirst b back hr
    | cons _ front => exact hrest front a b back (List.cons.inj h).2

/-- Characters fit their places exactly when the first does, and each other follows the one before. -/
theorem cased_iff (start : Bool) (cs : List Char) :
    Cased start cs ↔ (∀ c ∈ cs, isSeparator c = false) ∧ (∀ c, cs.head? = some c → CaseFits start c) ∧
      ∀ front a b back, cs = front ++ a :: b :: back → Follows a b back.head? := by
  induction cs generalizing start with
  | nil => simp [Cased]
  | cons c rest ih =>
    have hnext : (∀ b, rest.head? = some b → CaseFits (wordEndsBefore c rest) b) ↔
        ∀ b back, rest = b :: back → Follows c b back.head? := by
      cases rest with
      | nil => simp
      | cons b back => simp [wordEndsBefore, caseFits_iff]
    have hhead : (∀ d, (c :: rest).head? = some d → CaseFits start d) ↔ CaseFits start c := by simp
    rw [Cased, ih, hnext, hhead, forall_neighbours_cons_iff, List.forall_mem_cons]
    constructor
    · rintro ⟨hs, hc, hj, hn⟩
      exact ⟨⟨hs, hj⟩, hc, hn⟩
    · rintro ⟨⟨hs, hj⟩, hc, hn⟩
      exact ⟨hs, hc, hj, hn⟩

/-- Pascal case leaves a name as it is exactly when the name keeps the rules. -/
theorem pascal_eq_self_iff (name : String) : pascal name = name ↔ IsPascal name.toList := by
  have hchars : pascal name = name ↔ pascalFrom true name.toList = name.toList := by
    rw [pascal, ← String.toList_inj, String.toList_ofList]
  rw [hchars, pascalFrom_eq_self_iff, cased_iff]
  simp only [isSeparator_eq_false_iff]
  constructor
  · rintro ⟨hj, hh, hf⟩
    exact ⟨hj, hh, hf⟩
  · rintro ⟨hj, hh, hf⟩
    exact ⟨hj, hh, hf⟩

/-- **Schema names.** A schema may be called by a name exactly when it has one to 64 bytes, all of
them ASCII, is not reserved and keeps the rules of Pascal case. -/
theorem schemaNameFault_iff_grammar (name : String) : schemaNameFault? name = none ↔
    (1 ≤ name.utf8ByteSize ∧ name.utf8ByteSize ≤ 64) ∧ (∀ c ∈ name.toList, c.toNat < 128) ∧
      name ∉ reserved ∧ IsPascal name.toList := by
  have hsize : name ≠ "" ↔ 1 ≤ name.utf8ByteSize := by
    rw [Nat.one_le_iff_ne_zero, ne_eq, ne_eq, String.utf8ByteSize_eq_zero_iff]
  rw [schemaNameFault_iff]
  constructor
  · rintro ⟨hn, hs, ha, hp, hr⟩
    exact ⟨⟨hsize.1 hn, hs⟩, ha, hr, (pascal_eq_self_iff name).1 hp⟩
  · rintro ⟨⟨hn, hs⟩, ha, hr, hp⟩
    exact ⟨hsize.2 hn, hs, ha, (pascal_eq_self_iff name).2 hp, hr⟩

end EntityModel.Name
