/-!
# Numerals

Decimal text of a real number: a sign, digits with an optional point, an optional power of ten, or
one of the words for infinity and for no number. What matters of it is whether the double nearest
to it is below zero: a value of at most half the least double counts as zero.

Results:
* `isNegative_zero`: zero is not below zero, whatever its sign.
-/
namespace EntityModel.Text

/-- The number that a text stands for. -/
inductive Numeral where
  | finite (negative : Bool) (significand : Nat) (exponent : Int)
  | infinite (negative : Bool)
  | notANumber
deriving DecidableEq, Repr

namespace Numeral

/-- The exponent at the end of a numeral. -/
def exponentDigits? (digits : List Char) : Option Nat :=
  if digits.isEmpty || !digits.all Char.isDigit then none else some (Nat.ofDigitChars 10 digits 0)

/-- The power of ten at the end of a numeral. -/
def exponent? : List Char → Option Int
  | [] => some 0
  | c :: rest =>
    if c = 'e' ∨ c = 'E' then
      match rest with
      | '+' :: digits => (exponentDigits? digits).map fun n => (n : Int)
      | '-' :: digits => (exponentDigits? digits).map fun n => -(n : Int)
      | digits => (exponentDigits? digits).map fun n => (n : Int)
    else none

/-- A numeral without its sign. -/
def unsigned? (negative : Bool) (cs : List Char) : Option Numeral :=
  let word := cs.map Char.toLower
  if word = ['i', 'n', 'f'] ∨ word = ['i', 'n', 'f', 'i', 'n', 'i', 't', 'y'] then
    some (infinite negative)
  else if word = ['n', 'a', 'n'] then some notANumber
  else
    let whole := cs.takeWhile Char.isDigit
    let rest := cs.dropWhile Char.isDigit
    let (places, rest) := match rest with
      | '.' :: rest => (rest.takeWhile Char.isDigit, rest.dropWhile Char.isDigit)
      | rest => ([], rest)
    if whole.isEmpty && places.isEmpty then none
    else (exponent? rest).map fun power =>
      finite negative (Nat.ofDigitChars 10 (whole ++ places) 0) (power - places.length)

/-- The number that a text stands for. -/
def parse? : List Char → Option Numeral
  | '+' :: rest => unsigned? false rest
  | '-' :: rest => unsigned? true rest
  | cs => unsigned? false cs

/-- The double nearest to `significand * 10 ^ exponent` is not zero. The first two cases settle
all but the values near the least double `2 ^ -1074`. -/
def isVisible (significand : Nat) (exponent : Int) : Bool :=
  let lead := exponent + (Nat.toDigits 10 significand).length
  if significand = 0 then false
  else if -300 < lead then true
  else if lead < -400 then false
  else Nat.pow 10 (-exponent).toNat
    < significand * Nat.pow 10 exponent.toNat * Nat.pow 2 1075

/-- The nearest double is below zero. -/
def isNegative : Numeral → Bool
  | finite negative significand exponent => negative && isVisible significand exponent
  | infinite negative => negative
  | notANumber => false

theorem isNegative_zero (negative : Bool) (exponent : Int) :
    (finite negative 0 exponent).isNegative = false := by
  simp [isNegative, isVisible]

end Numeral

end EntityModel.Text
