/-!
# Blank characters

The Unicode `White_Space` property and the text without blanks at its ends.

Results:
* `isBlank_of_isWhitespace`: every blank that `Char.isWhitespace` knows is one here.
* `trim_of_all_blank`: a text of blanks trims to nothing.
-/
namespace EntityModel.Text

/-- The character has the `White_Space` property. -/
def isBlank (c : Char) : Bool :=
  let n := c.toNat
  (9 ≤ n && n ≤ 13) || n == 32 || n == 0x85 || n == 0xA0 || n == 0x1680 || (0x2000 ≤ n && n ≤ 0x200A)
    || n == 0x2028 || n == 0x2029 || n == 0x202F || n == 0x205F || n == 0x3000

/-- The characters without the blanks at both ends. -/
def trimChars (cs : List Char) : List Char :=
  ((cs.dropWhile isBlank).reverse.dropWhile isBlank).reverse

/-- The text without the blanks at both ends. -/
def trim (s : String) : String := String.ofList (trimChars s.toList)

/-- The text has nothing but blanks. -/
def isBlankText (s : String) : Bool := s.toList.all isBlank

theorem isBlank_of_isWhitespace {c : Char} (h : c.isWhitespace = true) : isBlank c = true := by
  simp only [Char.isWhitespace, Bool.or_eq_true, decide_eq_true_eq] at h
  rcases h with ((rfl | rfl) | rfl) | rfl <;> decide

theorem dropWhile_blank {cs : List Char} (h : cs.all isBlank = true) : cs.dropWhile isBlank = [] := by
  induction cs with
  | nil => rfl
  | cons c rest ih =>
    simp only [List.all_cons, Bool.and_eq_true] at h
    rw [List.dropWhile_cons, if_pos h.1, ih h.2]

theorem trim_of_all_blank {s : String} (h : isBlankText s = true) : trim s = "" := by
  simp [trim, trimChars, dropWhile_blank h]

end EntityModel.Text
