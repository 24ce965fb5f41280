import Mathlib
import EntityModel.Proofs.Text
import EntityModel.Text.Case

/-!
# Texts that lower-case to ASCII

A capital sigma at the end of a word is lower-cased to a letter of its own. `lower` leaves this out,
and may: a text that lower-cases to ASCII has no sigma, so whatever tells where a word ends, the same
texts are lower-cased to an ASCII name. They are its spellings, which differ from it in the case of
letters and may have the Kelvin sign for a `k`.

Results:
* `lowerWith_eq_iff`: ends of words do not count.
* `lower_eq_iff_spells`: which texts are lower-cased to the same as an ASCII text.
-/
namespace EntityModel.Text

/-- All characters are ASCII. -/
def Ascii (cs : List Char) : Prop := ∀ c ∈ cs, c.toNat < 128

/-- The sign for the unit of temperature, which is lower-cased to a letter of ASCII. -/
def kelvin : Char := '\u212a'

/-- The two characters have one lower-case form, if the second is ASCII. -/
def Spells (c d : Char) : Prop := c.toLower = d.toLower ∨ (c = kelvin ∧ d.toLower = 'k')

instance (c d : Char) : Decidable (Spells c d) :=
  inferInstanceAs (Decidable (c.toLower = d.toLower ∨ (c = kelvin ∧ d.toLower = 'k')))

/-! ## Characters -/

/-- But for the Kelvin sign, runs stay outside ASCII, and meet no code point that is no character. -/
theorem lowerRuns_images : ∀ run ∈ lowerRuns, (run.first = 8490 ∧ run.last = 8490) ∨
    (128 ≤ run.first + run.shift ∧ run.last + run.shift < 0xd800) ∨
      (0xdfff < run.first + run.shift ∧ run.last + run.shift < 0x110000) := by
  decide +kernel

theorem shifted_of_ne_kelvin {c : Char} (h : 128 ≤ c.toNat) (hk : c ≠ kelvin) :
    128 ≤ (shifted lowerRuns c).toNat := by
  unfold shifted
  split
  · next run hfind =>
    have hcovers := List.find?_some hfind
    simp only [CaseRun.covers, Bool.and_eq_true, decide_eq_true_eq] at hcovers
    have hne : c.toNat ≠ 8490 := fun he => hk (Char.toNat_inj.1 he)
    have himage := lowerRuns_images run (List.mem_of_find?_eq_some hfind)
    have hvalid : (c.toNat + run.shift).toNat.isValidChar := by
      simp only [Nat.isValidChar]
      omega
    rw [Char.toNat_ofNat, if_pos hvalid]
    omega
  · exact h

theorem toLower_of_not_ascii {c : Char} (h : 128 ≤ c.toNat) : c.toLower = c := by
  apply Char.toLower_eq_of_not_isUpper
  rw [isUpper_iff]
  omega

theorem toLower_ascii {c : Char} (h : c.toNat < 128) : c.toLower.toNat < 128 := by
  by_cases hupper : c.isUpper = true
  · have hrange := isUpper_iff.1 hupper
    have hvalid : (c.toNat + 32).isValidChar := .inl (by omega)
    rw [Char.toLower_eq_of_isUpper hupper, Char.toNat_ofNat, if_pos hvalid]
    omega
  · rw [Char.toLower_eq_of_not_isUpper hupper]
    exact h

/-- Outside ASCII only the Kelvin sign is lower-cased to ASCII. -/
theorem lowerChar_cases (c : Char) : (c.toNat < 128 ∧ lowerChar c = [c.toLower]) ∨
    (c = kelvin ∧ lowerChar c = ['k']) ∨
      (128 ≤ c.toNat ∧ c ≠ kelvin ∧ ∃ d ∈ lowerChar c, 128 ≤ d.toNat) := by
  by_cases h : c.toNat < 128
  · exact .inl ⟨h, lowerChar_ascii h⟩
  · by_cases hk : c = kelvin
    · exact .inr (.inl ⟨hk, by rw [hk]; decide⟩)
    · refine .inr (.inr ⟨by omega, hk, ?_⟩)
      rw [lowerChar, if_neg h]
      split
      · exact ⟨'\u0307', by simp, by decide⟩
      · exact ⟨_, List.mem_singleton_self _, shifted_of_ne_kelvin (by omega) hk⟩

/-- A character is lower-cased like an ASCII character exactly when it spells it. -/
theorem lowerChar_eq_iff_spells {c d : Char} (h : d.toNat < 128) :
    lowerChar c = [d.toLower] ↔ Spells c d := by
  have hd := toLower_ascii h
  rcases lowerChar_cases c with ⟨hc, hl⟩ | ⟨rfl, hl⟩ | ⟨hc, hk, e, he, hlow⟩
  · have hk : c ≠ kelvin := by
      rintro rfl
      exact absurd hc (by decide)
    simp [hl, Spells, hk]
  · have hne : kelvin.toLower ≠ d.toLower := by
      intro heq
      rw [← heq] at hd
      exact absurd hd (by decide)
    simp [hl, Spells, hne, eq_comm]
  · constructor
    · intro heq
      rw [heq, List.mem_singleton] at he
      rw [he] at hlow
      omega
    · rintro (heq | ⟨hkelvin, -⟩)
      · rw [toLower_of_not_ascii hc] at heq
        rw [← heq] at hd
        omega
      · exact absurd hkelvin hk

theorem exists_lowerChar_of_ascii {c : Char} (h : Ascii (lowerChar c)) : ∃ d, lowerChar c = [d] := by
  rcases lowerChar_cases c with ⟨-, hl⟩ | ⟨-, hl⟩ | ⟨-, -, d, hd, hlow⟩
  · exact ⟨_, hl⟩
  · exact ⟨_, hl⟩
  · have := h d hd
    omega

/-! ## Texts -/

theorem flatMap_lowerChar_of_ascii {cs : List Char} (h : Ascii cs) :
    cs.flatMap lowerChar = cs.map Char.toLower := by
  induction cs with
  | nil => rfl
  | cons c rest ih =>
    obtain ⟨hc, hrest⟩ := List.forall_mem_cons.1 h
    rw [List.flatMap_cons, lowerChar_ascii hc, ih hrest]
    rfl

theorem ascii_flatMap_lowerChar {cs : List Char} (h : Ascii cs) : Ascii (cs.flatMap lowerChar) := by
  rw [flatMap_lowerChar_of_ascii h]
  exact List.forall_mem_map.2 fun c hc => toLower_ascii (h c hc)

/-- Character by character, the texts that are lower-cased like an ASCII text are its spellings. -/
theorem flatMap_lowerChar_eq_iff {cs ds : List Char} (h : Ascii ds) :
    cs.flatMap lowerChar = ds.flatMap lowerChar ↔ List.Forall₂ Spells cs ds := by
  constructor
  · intro heq
    induction cs generalizing ds with
    | nil =>
      cases ds with
      | nil => exact .nil
      | cons d rest =>
        rw [List.flatMap_cons, lowerChar_ascii (h d (List.mem_cons_self ..))] at heq
        cases heq
    | cons c rest ih =>
      rw [List.flatMap_cons] at heq
      have hlow := ascii_flatMap_lowerChar h
      rw [← heq] at hlow
      obtain ⟨e, he⟩ := exists_lowerChar_of_ascii (List.forall_mem_append.1 hlow).1
      cases ds with
      | nil =>
        rw [he] at heq
        cases heq
      | cons d ds =>
        obtain ⟨hd, hds⟩ := List.forall_mem_cons.1 h
        rw [he, List.flatMap_cons, lowerChar_ascii hd] at heq
        obtain ⟨hhead, htail⟩ := List.cons.inj heq
        exact .cons ((lowerChar_eq_iff_spells hd).1 (by rw [he, hhead])) (ih hds htail)
  · intro hspells
    induction hspells with
    | nil => rfl
    | cons hc _ ih =>
      obtain ⟨hd, hrest⟩ := List.forall_mem_cons.1 h
      rw [List.flatMap_cons, List.flatMap_cons, ih hrest, (lowerChar_eq_iff_spells hd).2 hc,
        lowerChar_ascii hd]

theorem lower_eq_iff_spells {name : String} (h : Ascii name.toList) {text : String} :
    lower text = lower name ↔ List.Forall₂ Spells text.toList name.toList := by
  rw [lower, lower, String.ofList_inj, flatMap_lowerChar_eq_iff h]

/-! ## The sigma at the end of a word -/

/-- Lower-cases characters behind the ones `before`, of which the nearest comes first. A capital sigma
is a final one where the rule says so of what stands before and behind it. -/
def lowerFrom (isFinal : List Char → List Char → Bool) (before : List Char) : List Char → List Char
  | [] => []
  | c :: rest => (if c = 'Σ' ∧ isFinal before rest = true then ['ς'] else lowerChar c)
      ++ lowerFrom isFinal (c :: before) rest

/-- Lower-case form of a text, with a rule for the sigma at the end of a word. -/
def lowerWith (isFinal : List Char → List Char → Bool) (s : String) : String :=
  String.ofList (lowerFrom isFinal [] s.toList)

theorem lowerFrom_eq_iff (isFinal : List Char → List Char → Bool) {low : List Char} (h : Ascii low)
    {before cs : List Char} : lowerFrom isFinal before cs = low ↔ cs.flatMap lowerChar = low := by
  induction cs generalizing before low with
  | nil => rfl
  | cons c rest ih =>
    rw [lowerFrom, List.flatMap_cons]
    split
    · next hsigma =>
      -- both small sigmas are outside ASCII
      have hnot {d : Char} (hd : 128 ≤ d.toNat) (after : List Char) : d :: after ≠ low := by
        rintro rfl
        have := h d (List.mem_cons_self ..)
        omega
      rw [hsigma.1, show lowerChar 'Σ' = ['σ'] by decide]
      exact iff_of_false (hnot (by decide) _) (hnot (by decide) _)
    · constructor
      · rintro rfl
        rw [← (ih (List.forall_mem_append.1 h).2).1 rfl]
      · rintro rfl
        rw [(ih (List.forall_mem_append.1 h).2).2 rfl]

/-- Whatever tells where a word ends, the same texts are lower-cased like an ASCII text. -/
theorem lowerWith_eq_iff (isFinal : List Char → List Char → Bool) {name : String}
    (h : Ascii name.toList) {text : String} :
    lowerWith isFinal text = lowerWith isFinal name ↔ lower text = lower name := by
  have hlow (other : String) : lowerWith isFinal other = lower name ↔ lower other = lower name := by
    rw [lowerWith, lower, lower, String.ofList_inj, String.ofList_inj]
    exact lowerFrom_eq_iff isFinal (ascii_flatMap_lowerChar h)
  rw [(hlow name).2 rfl]
  exact hlow text

end EntityModel.Text
