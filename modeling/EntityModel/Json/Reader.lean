import EntityModel.Double.Scaled
import EntityModel.Json
import EntityModel.Text.Scan

/-!
# Reading JSON text

A text is a value between blanks, with at most 127 containers inside each other. A number without
point and exponent is a whole number when it fits 64 bits, signed if it is negative; every other
number is a double and must be finite. A string holds no bare control character, and an escaped
surrogate stands only in a pair. Of two members with one name the later counts.

Results:
* `absorb_append`: digits that fit are absorbed one after the other.
-/
namespace EntityModel.Json.Reader

open Text (Scan hexValue?)

/-- The character may stand between tokens. -/
def isSpace (c : Char) : Bool := c == ' ' || c == '\t' || c == '\n' || c == '\r'

/-- The text after its leading blanks. -/
def skipSpace (cs : List Char) : List Char := cs.dropWhile isSpace

/-! ## Strings -/

/-- A character of a string, or a UTF-16 unit that was written as an escape. -/
inductive Piece where
  | char (c : Char)
  | unit (n : Nat)

/-- The value of four hexadecimal digits. -/
def unit? (a b c d : Char) : Option Nat := do
  some ((((← hexValue? a) * 16 + (← hexValue? b)) * 16 + (← hexValue? c)) * 16 + (← hexValue? d))

/-- The character that a letter after a backslash stands for. -/
def escape? (c : Char) : Option Char :=
  if c = '"' ∨ c = '\\' ∨ c = '/' then some c
  else if c = 'b' then some '\x08'
  else if c = 'f' then some '\x0c'
  else if c = 'n' then some '\n'
  else if c = 'r' then some '\r'
  else if c = 't' then some '\t'
  else none

/-- The pieces of a string up to its closing quote. -/
def pieces : Scan (List Piece)
  | [] => none
  | '"' :: rest => some ([], rest)
  | '\\' :: 'u' :: a :: b :: c :: d :: rest => do
    let unit ← unit? a b c d
    let (more, rest) ← pieces rest
    some (.unit unit :: more, rest)
  | '\\' :: e :: rest => do
    let c ← escape? e
    let (more, rest) ← pieces rest
    some (.char c :: more, rest)
  | c :: rest => do
    if c.toNat < 0x20 then none
    let (more, rest) ← pieces rest
    some (.char c :: more, rest)

/-- A unit that opens a surrogate pair. -/
def isHigh (n : Nat) : Bool := 0xD800 ≤ n && n < 0xDC00

/-- A unit that closes a surrogate pair. -/
def isLow (n : Nat) : Bool := 0xDC00 ≤ n && n < 0xE000

/-- The characters that the pieces make up. -/
def join : List Piece → Option (List Char)
  | [] => some []
  | .char c :: rest => (c :: ·) <$> join rest
  | .unit n :: .unit m :: rest =>
    if isHigh n then
      if isLow m then (Char.ofNat (0x10000 + (n - 0xD800) * 0x400 + (m - 0xDC00)) :: ·) <$> join rest
      else none
    else if isLow n then none
    else (Char.ofNat n :: ·) <$> join (.unit m :: rest)
  | .unit n :: rest => if isHigh n || isLow n then none else (Char.ofNat n :: ·) <$> join rest

/-- The rest of a string after its opening quote. -/
def stringBody : Scan String := fun cs => do
  let (found, rest) ← pieces cs
  some (String.ofList (← join found), rest)

/-! ## Numbers -/

/-- The value of a decimal digit. -/
def digitValue (c : Char) : Nat := c.toNat - 48

/-- Appends digits to a significand as long as it stays below `2 ^ 64`; returns the digits left
over. -/
def absorb (significand : Nat) : List Char → Nat × List Char
  | [] => (significand, [])
  | d :: rest =>
    let next := significand * 10 + digitValue d
    if next < UInt64.size then absorb next rest else (significand, d :: rest)

theorem absorb_append {significand n : Nat} {ds es : List Char}
    (h : absorb significand ds = (n, [])) : absorb significand (ds ++ es) = absorb n es := by
  induction ds generalizing significand with
  | nil => simp [absorb] at h; simp [h]
  | cons d ds ih =>
    simp only [absorb, List.cons_append] at h ⊢
    split at h
    · next hlt => rw [if_pos hlt]; exact ih h
    · simp at h

/-- The digits after a point, if there is one. -/
def fraction? : Scan (Option (List Char))
  | '.' :: rest =>
    let digits := rest.takeWhile Char.isDigit
    if digits.isEmpty then none else some (some digits, rest.dropWhile Char.isDigit)
  | cs => some (none, cs)

/-- The digits of an exponent. -/
def exponentDigits? (negative : Bool) : Scan (Option Int) := fun cs =>
  let digits := cs.takeWhile Char.isDigit
  if digits.isEmpty then none
  else
    let n : Int := Nat.ofDigitChars 10 digits 0
    some (some (if negative then -n else n), cs.dropWhile Char.isDigit)

/-- The exponent, if there is one. -/
def exponent? : Scan (Option Int)
  | c :: rest =>
    if c = 'e' ∨ c = 'E' then
      match rest with
      | '+' :: rest => exponentDigits? false rest
      | '-' :: rest => exponentDigits? true rest
      | rest => exponentDigits? false rest
    else some (none, c :: rest)
  | [] => some (none, [])

/-- A whole number in the range of its sign, or a double. -/
def wholeNumber? (negative : Bool) (significand dropped : Nat) : Option Json :=
  if dropped = 0 ∧ !negative then some (.int significand)
  else if dropped = 0 ∧ significand ≠ 0 ∧ significand ≤ UInt64.size / 2 then some (.int (-significand))
  else .float <$> Double.ofScaled? negative significand dropped

/-- The rest of a number after its sign. -/
def number (negative : Bool) : Scan Json := fun cs => do
  let digits := cs.takeWhile Char.isDigit
  if digits.isEmpty || (digits.head? == some '0' && 1 < digits.length) then none
  let (significand, left) := absorb 0 digits
  let (fraction, rest) ← fraction? (cs.dropWhile Char.isDigit)
  let (exponent, rest) ← exponent? rest
  match fraction, exponent with
  | none, none => some (← wholeNumber? negative significand left.length, rest)
  | fraction, exponent =>
    let places := fraction.getD []
    let (significand, unused) := absorb significand places
    let scale : Int := left.length - (places.length - unused.length) + exponent.getD 0
    some (.float (← Double.ofScaled? negative significand scale), rest)

/-! ## Values -/

/-- A value that holds no other. -/
def scalar : Scan Json
  | 'n' :: 'u' :: 'l' :: 'l' :: rest => some (.null, rest)
  | 't' :: 'r' :: 'u' :: 'e' :: rest => some (.bool true, rest)
  | 'f' :: 'a' :: 'l' :: 's' :: 'e' :: rest => some (.bool false, rest)
  | '"' :: rest => do
    let (s, rest) ← stringBody rest
    some (.str s, rest)
  | '-' :: rest => number true rest
  | cs => number false cs

/-- One or more items with commas between them, up to a closing bracket; at most `fuel` items. -/
def separated {α : Type} (item : Scan α) (close : Char) : Nat → Scan (List α)
  | 0, _ => none
  | fuel + 1, cs => do
    let (first, rest) ← item cs
    match skipSpace rest with
    | [] => none
    | c :: rest =>
      if c = close then some ([first], rest)
      else if c = ',' then do
        let (more, rest) ← separated item close fuel rest
        some (first :: more, rest)
      else none

/-- The items of a container after its opening bracket. Every item takes a character at least, so
the length of the text bounds their number. -/
def container {α : Type} (item : Scan α) (close : Char) : Scan (List α) := fun cs =>
  match skipSpace cs with
  | [] => none
  | c :: rest => if c = close then some ([], rest) else separated item close cs.length (c :: rest)

/-- A name, a colon and a value. -/
def member (value : Scan Json) : Scan (String × Json) := fun cs =>
  match skipSpace cs with
  | '"' :: rest => do
    let (name, rest) ← stringBody rest
    match skipSpace rest with
    | ':' :: rest =>
      let (v, rest) ← value rest
      some ((name, v), rest)
    | _ => none
  | _ => none

/-- A value with at most `depth` containers inside each other. -/
def value : Nat → Scan Json
  | 0, cs => scalar (skipSpace cs)
  | depth + 1, cs =>
    match skipSpace cs with
    | '[' :: rest => do
      let (items, rest) ← container (value depth) ']' rest
      some (.arr items, rest)
    | '\x7b' :: rest => do
      let (members, rest) ← container (member (value depth)) '\x7d' rest
      some (object members, rest)
    | cs => scalar cs

/-- The most containers inside each other. -/
def maxDepth : Nat := 127

end EntityModel.Json.Reader

namespace EntityModel.Json

/-- The value that a text holds. -/
def parse? (s : String) : Option Json := do
  let (value, rest) ← Reader.value Reader.maxDepth s.toList
  if (Reader.skipSpace rest).isEmpty then some value else none

end EntityModel.Json
