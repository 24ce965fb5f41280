import EntityModel.Double.Text
import EntityModel.Json

/-!
# Compact JSON text

A value without blanks between its tokens. Strings escape the quote, the backslash and the
characters below the space; a double is written out in full where its leading digit has an
exponent from -5 to 15.

Results:
* `escapedChar_plain`: a character from the space on, but for the quote and the backslash, stands
  for itself.
-/
namespace EntityModel.Json

/-- How doubles are written. -/
def floatStyle : Double.TextStyle := ⟨-5, 15⟩

/-- Decimal text of a whole number. -/
def intChars (n : Int) : List Char :=
  if n < 0 then '-' :: Nat.toDigits 10 n.natAbs else Nat.toDigits 10 n.natAbs

/-- A digit of lower-case hexadecimal. -/
def hexDigit (n : Nat) : Char := Nat.digitChar n

/-- How one character stands in a string. -/
def escapedChar (c : Char) : List Char :=
  if c = '"' then ['\\', '"']
  else if c = '\\' then ['\\', '\\']
  else if 0x20 ≤ c.toNat then [c]
  else if c = '\n' then ['\\', 'n']
  else if c = '\r' then ['\\', 'r']
  else if c = '\t' then ['\\', 't']
  else if c.toNat = 8 then ['\\', 'b']
  else if c.toNat = 12 then ['\\', 'f']
  else ['\\', 'u', '0', '0', hexDigit (c.toNat / 16), hexDigit (c.toNat % 16)]

/-- A string in quotes. -/
def quotedChars (s : String) : List Char := '"' :: (s.toList.flatMap escapedChar ++ ['"'])

mutual

/-- The text of a value. -/
def chars : Json → List Char
  | .null => "null".toList
  | .bool true => "true".toList
  | .bool false => "false".toList
  | .int n => intChars n
  | .float d => d.text floatStyle
  | .str s => quotedChars s
  | .arr items => '[' :: (itemsChars items ++ [']'])
  | .obj members => '\x7b' :: (membersChars members ++ ['\x7d'])
termination_by structural value => value

/-- Items with commas between them. -/
def itemsChars : List Json → List Char
  | [] => []
  | [item] => item.chars
  | item :: next :: rest => item.chars ++ ',' :: itemsChars (next :: rest)
termination_by structural items => items

/-- Members with commas between them. -/
def membersChars : List (String × Json) → List Char
  | [] => []
  | [(name, value)] => quotedChars name ++ ':' :: value.chars
  | (name, value) :: next :: rest =>
    quotedChars name ++ ':' :: (value.chars ++ ',' :: membersChars (next :: rest))
termination_by structural members => members

end

/-- The compact text of a value. -/
def render (value : Json) : String := String.ofList value.chars

theorem escapedChar_plain {c : Char} (h : 0x20 ≤ c.toNat) (hq : c ≠ '"') (hb : c ≠ '\\') :
    escapedChar c = [c] := by
  simp [escapedChar, h, hq, hb]

end EntityModel.Json
