/-!
# Scanning text

A scan reads something from the front of a text and returns what is left of it. The value of a
hexadecimal digit is shared by every format that has escapes.

Results:
* `hexValue?_lt`: a hexadecimal digit is below sixteen.
-/
namespace EntityModel.Text

/-- Reads from the front of a text and returns the rest. -/
abbrev Scan (α : Type) := List Char → Option (α × List Char)

/-- The value of a hexadecimal digit of either case. -/
def hexValue? (c : Char) : Option Nat :=
  let n := c.toNat
  if 48 ≤ n ∧ n ≤ 57 then some (n - 48)
  else if 97 ≤ n ∧ n ≤ 102 then some (n - 87)
  else if 65 ≤ n ∧ n ≤ 70 then some (n - 55)
  else none

theorem hexValue?_lt {c : Char} {n : Nat} (h : hexValue? c = some n) : n < 16 := by
  unfold hexValue? at h
  simp only at h
  split at h
  · cases h; omega
  · split at h
    · cases h; omega
    · split at h
      · cases h; omega
      · cases h

end EntityModel.Text
