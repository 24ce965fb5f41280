import EntityModel.Text.UnprintedTable

/-!
# Text in double quotes, for people to read

A text between double quotes in which every character shows: the quote and the backslash are
escaped, and a character without a shape of its own is written by its code point.

Results:
* `escaped_plain`: a letter or digit is written as it is.
-/
namespace EntityModel.Text

/-- The character has no shape of its own. -/
def isUnprinted (c : Char) : Bool :=
  (unprintedBounds.takeWhile (· ≤ c.toNat)).length % 2 == 1

/-- The digits of a code point in lower-case hexadecimal, without leading zeros. -/
def codePoint (c : Char) : List Char := Nat.toDigits 16 c.toNat

/-- How one character is written between the quotes. -/
def escaped (c : Char) : List Char :=
  if c.isAlphanum then [c]
  else match c with
    | '"' => ['\\', '"']
    | '\\' => ['\\', '\\']
    | '\n' => ['\\', 'n']
    | '\r' => ['\\', 'r']
    | '\t' => ['\\', 't']
    | '\x00' => ['\\', '0']
    | c => if isUnprinted c then ['\\', 'u', '\x7b'] ++ codePoint c ++ ['\x7d'] else [c]

/-- The text in double quotes. -/
def quoted (s : String) : String :=
  String.ofList ('"' :: (s.toList.flatMap escaped ++ ['"']))

theorem escaped_plain {c : Char} (h : c.isAlphanum = true) : escaped c = [c] := by
  simp [escaped, h]

end EntityModel.Text
