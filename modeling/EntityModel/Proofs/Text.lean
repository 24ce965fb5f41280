import EntityModel.Text.Blank

/-!
# Characters and pieces of text

ASCII letters and digits are ranges of code points that do not meet, and changing the case of a
character changes nothing but a letter of the other case. A text is cut where one piece of it ends, and
is read without the blanks around it.

Results:
* `isUpper_of_isLower`, `isDigit_of_isLower`, `isDigit_of_isUpper`: no character is of two kinds.
* `toUpper_eq_self_iff`, `toLower_eq_self_iff`: the characters that a change of case leaves.
* `cut_of_append`: a word in two pieces is cut at some place.
* `takeWhile_exact`, `dropWhile_exact`: a scan stops behind the characters that go on with it.
* `trimChars_padded`: blanks around a text without blanks are trimmed.
-/
namespace EntityModel.Text

/-! ## Letters and digits -/

theorem isLower_eq (c : Char) :
    c.isLower = (decide (c.val ≥ 'a'.val) && decide (c.val ≤ 'z'.val)) :=
  rfl

theorem isUpper_eq (c : Char) : c.isUpper = decide (c.val ≥ 'A'.val ∧ c.val ≤ 'Z'.val) :=
  rfl

theorem isAlpha_eq (c : Char) : c.isAlpha = (c.isUpper || c.isLower) :=
  rfl

theorem isLower_toUpper (c : Char) : c.toUpper.isLower = false := by
  unfold Char.toUpper
  split
  · next h =>
    obtain ⟨h, h'⟩ := h
    simp [isLower_eq, UInt32.le_iff_toNat_le] at h h' ⊢
    omega
  · next h => simpa [isLower_eq] using h

/-- Upper-casing changes only what it makes an upper-case letter. -/
theorem toUpper_eq_or (c : Char) : c.toUpper = c ∨ c.toUpper.isUpper = true := by
  unfold Char.toUpper
  split
  · next h =>
    obtain ⟨h, h'⟩ := h
    right
    simp [isUpper_eq, UInt32.le_iff_toNat_le] at h h' ⊢
    omega
  · exact .inl rfl

/-- What is upper-cased to a letter is this letter or its small form. -/
theorem eq_or_eq_toLower {c letter : Char} (h : c.toUpper = letter) :
    c = letter ∨ c = letter.toLower := by
  subst h
  unfold Char.toUpper
  split
  · next hl =>
    right
    obtain ⟨h, h'⟩ := hl
    unfold Char.toLower
    apply Char.ext
    split
    · simp [UInt32.add_assoc]
    · next hn =>
      refine absurd ?_ hn
      simp [UInt32.le_iff_toNat_le] at h h' ⊢
      omega
  · exact .inl rfl

theorem isUpper_iff {c : Char} : c.isUpper = true ↔ 65 ≤ c.toNat ∧ c.toNat ≤ 90 := by
  simp [isUpper_eq, UInt32.le_iff_toNat_le, ← Char.toNat_val]

theorem isLower_iff {c : Char} : c.isLower = true ↔ 97 ≤ c.toNat ∧ c.toNat ≤ 122 := by
  simp [isLower_eq, UInt32.le_iff_toNat_le, ← Char.toNat_val]

theorem isUpper_of_isLower {c : Char} (h : c.isLower = true) : c.isUpper = false := by
  rw [isLower_iff] at h
  rw [Bool.eq_false_iff, ne_eq, isUpper_iff]
  omega

theorem isDigit_iff {c : Char} : c.isDigit = true ↔ 48 ≤ c.toNat ∧ c.toNat ≤ 57 :=
  Char.isDigit_iff_toNat

theorem isDigit_of_isLower {c : Char} (h : c.isLower = true) : c.isDigit = false := by
  rw [isLower_iff] at h
  rw [Bool.eq_false_iff, ne_eq, isDigit_iff]
  omega

theorem isDigit_of_isUpper {c : Char} (h : c.isUpper = true) : c.isDigit = false := by
  rw [isUpper_iff] at h
  rw [Bool.eq_false_iff, ne_eq, isDigit_iff]
  omega

theorem isUpper_of_isDigit {c : Char} (h : c.isDigit = true) : c.isUpper = false := by
  rw [isDigit_iff] at h
  rw [Bool.eq_false_iff, ne_eq, isUpper_iff]
  omega

theorem toUpper_eq_self_iff (c : Char) : c.toUpper = c ↔ c.isLower = false := by
  constructor
  · intro h
    rw [← h]
    exact isLower_toUpper c
  · intro h
    unfold Char.toUpper
    exact dif_neg (by simpa [isLower_eq] using h)

theorem isUpper_toLower (c : Char) : c.toLower.isUpper = false := by
  unfold Char.toLower
  split
  · next h =>
    obtain ⟨h, h'⟩ := h
    simp [isUpper_eq, UInt32.le_iff_toNat_le] at h h' ⊢
    omega
  · next h => simpa [isUpper_eq] using h

theorem toLower_eq_self_iff (c : Char) : c.toLower = c ↔ c.isUpper = false := by
  constructor
  · intro h
    rw [← h]
    exact isUpper_toLower c
  · intro h
    unfold Char.toLower
    exact dif_neg (by simpa [isUpper_eq] using h)

/-! ## Pieces -/

/-- A word in two pieces is cut at some place. -/
theorem cut_of_append {front back word : String} {c : Char} {rest : List Char}
    (hb : back.toList = c :: rest) (h : front ++ back = word) :
    ∃ k, word.toList[k]? = some c ∧ front = String.ofList (word.toList.take k) := by
  have hw : word.toList = front.toList ++ c :: rest := by rw [← h, String.toList_append, hb]
  refine ⟨front.toList.length, ?_, ?_⟩
  · rw [hw]; simp
  · rw [hw, List.take_left, String.ofList_toList]

theorem isSuffix_of_append {front back word : String} (h : front ++ back = word) :
    back.toList <:+ word.toList :=
  ⟨front.toList, by rw [← h, String.toList_append]⟩

/-- A scan stops behind the characters that go on with it. -/
theorem takeWhile_exact {p : Char → Bool} {body rest : List Char} (hbody : ∀ c ∈ body, p c = true)
    (hrest : ∀ c, rest.head? = some c → p c = false) : (body ++ rest).takeWhile p = body := by
  rw [List.takeWhile_append_of_pos hbody]
  cases rest with
  | nil => simp
  | cons c rest => simp [hrest c rfl]

theorem dropWhile_exact {p : Char → Bool} {body rest : List Char} (hbody : ∀ c ∈ body, p c = true)
    (hrest : ∀ c, rest.head? = some c → p c = false) : (body ++ rest).dropWhile p = rest := by
  rw [List.dropWhile_append_of_pos hbody]
  cases rest with
  | nil => rfl
  | cons c rest => simp [hrest c rfl]

/-! ## Blanks -/

theorem isBlank_of_isDigit {c : Char} (h : c.isDigit = true) : isBlank c = false := by
  rw [isDigit_iff] at h
  simp only [isBlank, Bool.or_eq_false_iff, Bool.and_eq_false_iff, decide_eq_false_iff_not,
    beq_eq_false_iff_ne]
  omega

/-- Blanks around a text without blanks are trimmed, and nothing else. -/
theorem trimChars_padded {front cs back : List Char} (hf : ∀ c ∈ front, isBlank c = true)
    (hb : ∀ c ∈ back, isBlank c = true) (hcs : ∀ c ∈ cs, isBlank c = false) (hne : cs ≠ []) :
    trimChars (front ++ cs ++ back) = cs := by
  have hhead (cs more : List Char) (hcs : ∀ c ∈ cs, isBlank c = false) (hne : cs ≠ []) :
      ∀ c, (cs ++ more).head? = some c → isBlank c = false := by
    obtain ⟨c, rest, rfl⟩ := List.exists_cons_of_ne_nil hne
    intro d hd
    obtain rfl : c = d := Option.some_inj.1 hd
    exact hcs c (List.mem_cons_self ..)
  have hback : ∀ c ∈ back.reverse, isBlank c = true := by simpa using hb
  have hend : ∀ c, cs.reverse.head? = some c → isBlank c = false := by
    simpa using hhead cs.reverse [] (by simpa using hcs) (by simpa using hne)
  rw [trimChars, List.append_assoc, dropWhile_exact hf (hhead cs back hcs hne),
    List.reverse_append, dropWhile_exact hback hend, List.reverse_reverse]

end EntityModel.Text
