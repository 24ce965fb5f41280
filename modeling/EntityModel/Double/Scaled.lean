import EntityModel.Double

/-!
# Doubles from a significand and a power of ten

The double of `significand · 10 ^ exponent` by one rounding of the significand and one of a
product or quotient with a power of ten up to `10 ^ 308`; a smaller power is reached by dividing by
`10 ^ 308` first. A value beyond the greatest double is none.
-/
namespace EntityModel.Double

/-- The double nearest to a power of ten. -/
def tenPow (n : Nat) : Float := Float.ofScientific 1 false n

/-- Divides by `10 ^ n`, in steps of at most `10 ^ 308`. -/
def divTenPow (f : Float) (n : Nat) : Float :=
  if n ≤ 308 then f / tenPow n
  else if f == 0 then f
  else divTenPow (f / tenPow 308) (n - 308)
termination_by n

/-- Multiplies by `10 ^ n`; none beyond the greatest double. -/
def mulTenPow? (f : Float) (n : Nat) : Option Float :=
  if n ≤ 308 then
    let product := f * tenPow n
    if product.isInf then none else some product
  else if f == 0 then some f
  else none

/-- The double of a signed significand below `2 ^ 64` and a power of ten. -/
def ofScaled? (negative : Bool) (significand : Nat) (exponent : Int) : Option Double :=
  let f := significand.toUInt64.toFloat
  let magnitude? := if exponent < 0 then some (divTenPow f exponent.natAbs)
    else mulTenPow? f exponent.toNat
  magnitude?.map fun magnitude => ⟨(if negative then -magnitude else magnitude).toBits⟩

end EntityModel.Double
