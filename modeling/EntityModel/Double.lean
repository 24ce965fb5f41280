/-!
# Binary64 numbers

A finite double, kept as its 64 bits so that two of them can be told apart and compared without
rounding. Its value is `± mantissa · 2 ^ exponent`.

Results:
* `sameValue_self`: a double has its own value.
-/
namespace EntityModel

/-- A double by its bits. -/
structure Double where
  bits : UInt64
deriving DecidableEq, Repr

namespace Double

/-- The sign bit. -/
def isNegative (d : Double) : Bool := d.bits >>> 63 == 1

/-- The eleven exponent bits. -/
def exponentBits (d : Double) : Nat := ((d.bits >>> 52) &&& 0x7FF).toNat

/-- The 52 fraction bits. -/
def fractionBits (d : Double) : Nat := (d.bits &&& 0xFFFFFFFFFFFFF).toNat

/-- The whole number that the power of two multiplies. -/
def mantissa (d : Double) : Nat :=
  if d.exponentBits = 0 then d.fractionBits else d.fractionBits + (1 <<< 52)

/-- The power of two. -/
def exponent (d : Double) : Int :=
  if d.exponentBits = 0 then -1074 else (d.exponentBits : Int) - 1075

/-- One of the two zeros. -/
def isZero (d : Double) : Bool := d.mantissa = 0

/-- Equal as numbers: the two zeros are one number, otherwise the bits decide. -/
def sameValue (a b : Double) : Bool := a = b || (a.isZero && b.isZero)

theorem sameValue_self (d : Double) : d.sameValue d = true := by simp [sameValue]

end Double

end EntityModel
