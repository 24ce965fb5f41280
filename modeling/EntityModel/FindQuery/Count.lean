import EntityModel.Json
import EntityModel.Text.Blank
import EntityModel.Text.Numeral

/-!
# Counts

A count is a whole number below `2 ^ 64`. It is given as such a number, as its decimal text with
an optional plus sign and blanks around it, or as `null` for zero. Of the three faults, a number
below zero is negative, any other number is not whole, and all else is not numeric.

Results:
* `ofDigits?_toDigits`: a count is read back from its digits.
-/
namespace EntityModel.Count

/-- Why a value is no count. -/
inductive Fault where
  | negative
  | notWhole
  | notNumeric
deriving DecidableEq, Repr

/-- The fault in words. -/
def Fault.message : Fault → String
  | negative => "must be non-negative"
  | notWhole => "must be a whole number"
  | notNumeric => "must be numeric"

/-- The fault of a number that is no count, given whether it is below zero. -/
def Fault.ofNumber (isNegative : Bool) : Fault := if isNegative then negative else notWhole

/-- The count that digits stand for. -/
def ofDigits? (digits : List Char) : Option UInt64 :=
  if digits.isEmpty || !digits.all Char.isDigit then none
  else
    let n := Nat.ofDigitChars 10 digits 0
    if n < UInt64.size then some n.toUInt64 else none

theorem ofDigits?_toDigits (count : UInt64) : ofDigits? (Nat.toDigits 10 count.toNat) = some count := by
  have digits : (Nat.toDigits 10 count.toNat).all Char.isDigit = true :=
    List.all_eq_true.2 fun c hc => Nat.isDigit_of_mem_toDigits (by decide) (by decide) hc
  have nonempty : Nat.toDigits 10 count.toNat ≠ [] := Nat.toDigits_ne_nil
  have below : count.toNat < UInt64.size := count.toNat_lt_size
  unfold ofDigits?
  simp [digits, nonempty, Nat.ofDigitChars_ten_toDigits]
  omega

/-- The count that a text without blanks around it stands for. -/
def ofPlainText? : List Char → Option UInt64
  | '+' :: digits => ofDigits? digits
  | digits => ofDigits? digits

/-- The count that a text stands for. -/
def ofText (text : String) : Except Fault UInt64 :=
  let cs := Text.trimChars text.toList
  match ofPlainText? cs with
  | some count => .ok count
  | none =>
    match Text.Numeral.parse? cs with
    | some numeral => .error (.ofNumber numeral.isNegative)
    | none => .error .notNumeric

/-- The count that a value stands for. -/
def ofJson : Json → Except Fault UInt64
  | .null => .ok 0
  | .int n =>
    if 0 ≤ n ∧ n < UInt64.size then .ok n.toNat.toUInt64 else .error (.ofNumber (n < 0))
  | .float d => .error (.ofNumber (d.isNegative && !d.isZero))
  | .str text => ofText text
  | _ => .error .notNumeric

end EntityModel.Count
