import EntityModel.Json.Reader
import EntityModel.Json.Writer

/-!
# Strings and whole numbers read back

What the writer makes of a string or of a whole number of 64 bits, the reader turns into the same
again, whatever follows. A character that the writer escapes by its unit is below the space, so
the reader never takes two units for a surrogate pair.

Results:
* `stringBody_escaped`: a string reads back.
* `absorb_toDigits`: the digits of a number below `2 ^ 64` are absorbed.
* `scalar_intChars`: a whole number reads back, unless what follows could go on with it.
-/
namespace EntityModel.Json.Reader

open Text (hexValue?)

/-! ## Strings -/

/-- One piece before what is read of the rest. -/
def withPiece (piece : Piece) (read : Option (List Piece × List Char)) :
    Option (List Piece × List Char) :=
  read.map fun (more, rest) => (piece :: more, rest)

theorem pieces_plain {c : Char} (hq : c ≠ '"') (hb : c ≠ '\\') (hc : 0x20 ≤ c.toNat)
    (rest : List Char) : pieces (c :: rest) = withPiece (.char c) (pieces rest) := by
  have hlt : ¬ c.toNat < 0x20 := by omega
  rw [pieces.eq_def]
  split
  · next h => cases h
  · next h => cases h; exact absurd rfl hq
  · next h => cases h; exact absurd rfl hb
  · next h => cases h; exact absurd rfl hb
  · next h =>
    cases h
    simp only [if_neg hlt]
    cases pieces rest <;> rfl

theorem pieces_short {e c : Char} (he : escape? e = some c) (rest : List Char) :
    pieces ('\\' :: e :: rest) = withPiece (.char c) (pieces rest) := by
  have hu : e ≠ 'u' := by
    intro hu
    subst hu
    revert he
    simp [escape?]
  rw [pieces.eq_def]
  split
  · next h => cases h
  · next h => cases h
  · next h => cases h; exact absurd rfl hu
  · next h =>
    cases h
    simp only [he]
    cases pieces rest <;> rfl
  · next hne h => cases h; exact absurd rfl (hne _ _ rfl)

theorem pieces_unit {a b c d : Char} {n : Nat} (hn : unit? a b c d = some n) (rest : List Char) :
    pieces ('\\' :: 'u' :: a :: b :: c :: d :: rest) = withPiece (.unit n) (pieces rest) := by
  rw [pieces.eq_def]
  simp only [hn]
  cases pieces rest <;> rfl

/-- A unit below the surrogates is a character by itself. -/
theorem join_unit {n : Nat} (hn : n < 0xD800) (more : List Piece) :
    join (.unit n :: more) = (join more).map (Char.ofNat n :: ·) := by
  have hh : isHigh n = false := by simp [isHigh]; omega
  have hl : isLow n = false := by simp [isLow]; omega
  rw [join.eq_def]
  split <;> simp_all

/-- What the writer makes of a character is read as one piece, which stands for the character. -/
theorem pieces_escapedChar (c : Char) : ∃ piece,
    (∀ rest, pieces (escapedChar c ++ rest) = withPiece piece (pieces rest)) ∧
      ∀ more, join (piece :: more) = (join more).map (c :: ·) := by
  have hshort {e : Char} (hw : escapedChar c = ['\\', e]) (he : escape? e = some c) : ∃ piece,
      (∀ rest, pieces (escapedChar c ++ rest) = withPiece piece (pieces rest)) ∧
        ∀ more, join (piece :: more) = (join more).map (c :: ·) :=
    ⟨.char c, fun rest => by rw [hw]; exact pieces_short he rest, fun more => by simp [join]⟩
  by_cases hq : c = '"'
  · subst hq; exact hshort rfl rfl
  by_cases hb : c = '\\'
  · subst hb; exact hshort rfl rfl
  by_cases hc : 0x20 ≤ c.toNat
  · refine ⟨.char c, fun rest => ?_, fun more => by simp [join]⟩
    rw [escapedChar_plain hc hq hb]
    exact pieces_plain hq hb hc rest
  by_cases hn : c = '\n'
  · subst hn; exact hshort rfl rfl
  by_cases hr : c = '\r'
  · subst hr; exact hshort rfl rfl
  by_cases ht : c = '\t'
  · subst ht; exact hshort rfl rfl
  by_cases h8 : c.toNat = 8
  · have : c = '\x08' := Char.toNat_inj.1 h8
    subst this; exact hshort rfl rfl
  by_cases h12 : c.toNat = 12
  · have : c = '\x0c' := Char.toNat_inj.1 h12
    subst this; exact hshort rfl rfl
  have hunit : ∀ n < 0x20, unit? '0' '0' (hexDigit (n / 16)) (hexDigit (n % 16)) = some n := by
    decide
  refine ⟨.unit c.toNat, fun rest => ?_, fun more => ?_⟩
  · simp only [escapedChar, hq, hb, hc, hn, hr, ht, h8, h12, if_false]
    exact pieces_unit (hunit c.toNat (by omega)) rest
  · rw [join_unit (by omega), Char.ofNat_toNat]

theorem pieces_escaped (cs rest : List Char) : ∃ found,
    pieces (cs.flatMap escapedChar ++ '"' :: rest) = some (found, rest) ∧ join found = some cs := by
  induction cs with
  | nil => exact ⟨[], by simp [pieces], rfl⟩
  | cons c cs ih =>
    obtain ⟨found, hread, hjoin⟩ := ih
    obtain ⟨piece, hpiece, hc⟩ := pieces_escapedChar c
    refine ⟨piece :: found, ?_, by rw [hc, hjoin]; rfl⟩
    rw [List.flatMap_cons, List.append_assoc, hpiece, hread]
    rfl

/-- **Strings.** A string reads back after its opening quote. -/
theorem stringBody_escaped (s : String) (rest : List Char) :
    stringBody (s.toList.flatMap escapedChar ++ '"' :: rest) = some (s, rest) := by
  obtain ⟨found, hread, hjoin⟩ := pieces_escaped s.toList rest
  simp [stringBody, hread, hjoin]

/-! ## Whole numbers -/

/-- The character could go on with a number. -/
def extendsNumber (c : Char) : Bool := c.isDigit || c == '.' || c == 'e' || c == 'E'

/-- What follows does not go on with a number. -/
def Ends (rest : List Char) : Prop := rest.head?.any extendsNumber = false

theorem absorb_digitChar {m d : Nat} (hd : d < 10) (h : m * 10 + d < UInt64.size) :
    absorb m [d.digitChar] = (m * 10 + d, []) := by
  have hvalue : digitValue d.digitChar = d := Nat.toNat_digitChar_sub_48_of_lt_ten hd
  simp only [absorb, hvalue, if_pos h]

/-- The digits of a number that fits are absorbed. -/
theorem absorb_toDigits (n : Nat) (h : n < UInt64.size) : absorb 0 (Nat.toDigits 10 n) = (n, []) := by
  induction n using Nat.strongRecOn with
  | ind n ih =>
    by_cases hn : n < 10
    · rw [Nat.toDigits_of_lt_base hn, absorb_digitChar hn (by omega), Nat.zero_mul, Nat.zero_add]
    · have hnext : n / 10 * 10 + n % 10 = n := by omega
      have hfront := ih (n / 10) (by omega) (by omega)
      rw [Nat.toDigits_of_base_le (by decide) (by omega), absorb_append hfront,
        absorb_digitChar (Nat.mod_lt _ (by decide)) (by omega), hnext]

/-- Only zero starts with a zero. -/
theorem toDigits_head (n : Nat) (h : (Nat.toDigits 10 n).head? = some '0') : n = 0 := by
  induction n using Nat.strongRecOn with
  | ind n ih =>
    by_cases hn : n < 10
    · rw [Nat.toDigits_of_lt_base hn] at h
      simpa using h
    · have hne : (Nat.toDigits 10 (n / 10)).head? ≠ none :=
        fun hnone => Nat.toDigits_ne_nil (List.head?_eq_none_iff.1 hnone)
      rw [Nat.toDigits_of_base_le (by decide) (by omega), List.head?_append,
        Option.or_of_isSome (Option.isSome_iff_ne_none.2 hne)] at h
      have := ih (n / 10) (by omega) h
      omega

theorem isDigit_toDigits {n : Nat} : ∀ c ∈ Nat.toDigits 10 n, c.isDigit = true :=
  fun _ hc => Nat.isDigit_of_mem_toDigits (by decide) (by decide) hc

section Ends

variable {rest : List Char} (h : Ends rest)

include h

theorem Ends.takeWhile : rest.takeWhile Char.isDigit = [] := by
  cases rest with
  | nil => rfl
  | cons c rest =>
    have hc : c.isDigit = false := by simp_all [Ends, extendsNumber]
    simp [hc]

theorem Ends.dropWhile : rest.dropWhile Char.isDigit = rest := by
  cases rest with
  | nil => rfl
  | cons c rest =>
    have hc : c.isDigit = false := by simp_all [Ends, extendsNumber]
    simp [hc]

theorem Ends.fraction? : fraction? rest = some (none, rest) := by
  cases rest with
  | nil => rfl
  | cons c rest =>
    have hc : c ≠ '.' := by rintro rfl; simp [Ends, extendsNumber] at h
    simp [Reader.fraction?, hc]

theorem Ends.exponent? : exponent? rest = some (none, rest) := by
  cases rest with
  | nil => rfl
  | cons c rest =>
    have hc : ¬ (c = 'e' ∨ c = 'E') := by rintro (rfl | rfl) <;> simp [Ends, extendsNumber] at h
    rw [Reader.exponent?.eq_def]
    simp [hc]

end Ends

theorem number_toDigits {negative : Bool} {n : Nat} (hn : n < UInt64.size) {rest : List Char}
    (h : Ends rest) : number negative (Nat.toDigits 10 n ++ rest)
      = (wholeNumber? negative n 0).map fun value => (value, rest) := by
  have htake : (Nat.toDigits 10 n ++ rest).takeWhile Char.isDigit = Nat.toDigits 10 n := by
    rw [List.takeWhile_append_of_pos isDigit_toDigits, h.takeWhile, List.append_nil]
  have hdrop : (Nat.toDigits 10 n ++ rest).dropWhile Char.isDigit = rest := by
    rw [List.dropWhile_append_of_pos isDigit_toDigits, h.dropWhile]
  have hlead : ((Nat.toDigits 10 n).isEmpty || ((Nat.toDigits 10 n).head? == some '0'
      && decide (1 < (Nat.toDigits 10 n).length))) = false := by
    by_cases hhead : (Nat.toDigits 10 n).head? = some '0'
    · rw [toDigits_head n hhead]; rfl
    · simp [hhead, Nat.toDigits_ne_nil]
  simp only [number, htake, hdrop, hlead, absorb_toDigits n hn, h.fraction?, h.exponent?,
    Bool.false_eq_true, if_false, Option.bind_eq_bind, Option.bind_some]
  cases wholeNumber? negative n 0 <;> rfl

theorem scalar_digit {d : Char} (hd : d.isDigit = true) (rest : List Char) :
    scalar (d :: rest) = number false (d :: rest) := by
  rw [scalar.eq_def]
  split
  · next h => cases h; cases hd
  · next h => cases h; cases hd
  · next h => cases h; cases hd
  · next h => cases h; cases hd
  · next h => cases h; cases hd
  · rfl

/-- The text of a whole number starts with a digit or a sign. -/
theorem intChars_head (n : Int) : ∃ c rest, intChars n = c :: rest ∧ (c = '-' ∨ c.isDigit = true) := by
  unfold intChars
  by_cases hn : n < 0
  · exact ⟨'-', _, by rw [if_pos hn], .inl rfl⟩
  · obtain ⟨d, ds, hds⟩ := List.exists_cons_of_ne_nil (Nat.toDigits_ne_nil (n := n.natAbs) (b := 10))
    exact ⟨d, ds, by rw [if_neg hn, hds], .inr (isDigit_toDigits d (by rw [hds]; simp))⟩

/-- **Whole numbers.** A whole number of 64 bits reads back, unless what follows goes on with it. -/
theorem scalar_intChars {n : Int} (hlow : -9223372036854775808 ≤ n)
    (hhigh : n < 18446744073709551616) {rest : List Char} (h : Ends rest) : scalar (intChars n ++ rest) = some (.int n, rest) := by
  have hsize : n.natAbs < UInt64.size := by simp only [UInt64.size]; omega
  unfold intChars
  by_cases hn : n < 0
  · have hread : wholeNumber? true n.natAbs 0 = some (.int n) := by
      have hne : n.natAbs ≠ 0 := by omega
      have hle : n.natAbs ≤ UInt64.size / 2 := by simp only [UInt64.size]; omega
      have hneg : -(n.natAbs : Int) = n := by omega
      rw [wholeNumber?, if_neg (by simp), if_pos ⟨rfl, hne, hle⟩, hneg]
    rw [if_pos hn, List.cons_append]
    show number true (Nat.toDigits 10 n.natAbs ++ rest) = _
    rw [number_toDigits hsize h, hread]
    rfl
  · have hread : wholeNumber? false n.natAbs 0 = some (.int n) := by
      have habs : (n.natAbs : Int) = n := by omega
      rw [wholeNumber?, if_pos ⟨rfl, rfl⟩, habs]
    have hnumber : number false (Nat.toDigits 10 n.natAbs ++ rest) = _ :=
      number_toDigits hsize h
    rw [if_neg hn]
    obtain ⟨d, ds, hds⟩ := List.exists_cons_of_ne_nil (Nat.toDigits_ne_nil (n := n.natAbs) (b := 10))
    have hd : d.isDigit = true := isDigit_toDigits d (by rw [hds]; simp)
    rw [hds, List.cons_append] at hnumber ⊢
    rw [scalar_digit hd, hnumber, hread]
    rfl

end EntityModel.Json.Reader
