import EntityModel.Double

/-!
# The fewest digits that read back

Among the decimals that round to a double, the ones with the fewest digits, and of these the
nearest to it. All arithmetic is exact, on natural numbers: the value and the ends of the interval
of reals that round to it are fractions over one denominator. For one digit, two digits, and so on
up to seventeen, the two neighbours of the value on that decimal grid are tried.

Results:
* `contains_nearest?`: the grid point that is found rounds to the value.
-/
namespace EntityModel.Double

/-- A value and the interval of reals that round to it, as numerators over one denominator. -/
structure Interval where
  low : Nat
  value : Nat
  high : Nat
  denominator : Nat
  /-- The two ends round to the value too. -/
  closed : Bool

/-- The interval of a double with `10 ^ scale` as the unit. The numerators count quarters of the
last binary place: the upper end lies two of them away, and so does the lower one, but just above
a power of two, where the doubles below are closer. -/
def interval (d : Double) (scale : Int) : Interval :=
  let m := d.mantissa
  let below := if d.fractionBits = 0 ∧ 1 < d.exponentBits then 1 else 2
  let twos := d.exponent - 2
  let up := Nat.pow 2 twos.toNat * Nat.pow 10 (-scale).toNat
  let down := Nat.pow 2 (-twos).toNat * Nat.pow 10 scale.toNat
  ⟨(4 * m - below) * up, 4 * m * up, (4 * m + 2) * up, down, m % 2 == 0⟩

/-- The grid point `n` lies in the interval. -/
def Interval.contains (i : Interval) (n : Nat) : Bool :=
  let p := n * i.denominator
  if i.closed then i.low ≤ p && p ≤ i.high else i.low < p && p < i.high

/-- The nearest grid point of the interval, if one of the value's two neighbours lies in it; of
two equally near the even one. -/
def Interval.nearest? (i : Interval) : Option Nat :=
  let n := i.value / i.denominator
  let under := i.value - n * i.denominator
  let beyond := (n + 1) * i.denominator - i.value
  match i.contains n, i.contains (n + 1) with
  | true, true =>
    if under < beyond then some n
    else if beyond < under then some (n + 1)
    else some (if n % 2 == 0 then n else n + 1)
  | true, false => some n
  | false, true => some (n + 1)
  | false, false => none

theorem Interval.contains_nearest? {i : Interval} {n : Nat} (h : i.nearest? = some n) :
    i.contains n = true := by
  unfold Interval.nearest? at h
  simp only at h
  split at h
  · next low high =>
    split at h
    · cases h; exact low
    · split at h
      · cases h; exact high
      · split at h <;> cases h <;> assumption
  · next low _ => cases h; exact low
  · next _ high => cases h; exact high
  · cases h

/-- The value is at least `10 ^ power`. -/
def atLeastTenPow (d : Double) (power : Int) : Bool :=
  let i := d.interval power
  i.denominator ≤ i.value

/-- The exponent of the leading decimal digit. -/
def leadingExponent (d : Double) : Int :=
  let guess := (d.exponent + (Nat.log2 d.mantissa : Int)) * 30103 / 100000
  if d.atLeastTenPow (guess + 1) then guess + 1
  else if d.atLeastTenPow guess then guess
  else guess - 1

/-- Takes zeros off the end of a decimal, at most `fuel` of them. -/
def stripZeros (fuel : Nat) (digits : Nat) (scale : Int) : Nat × Int :=
  match fuel with
  | 0 => (digits, scale)
  | fuel + 1 =>
    if digits ≠ 0 ∧ digits % 10 = 0 then stripZeros fuel (digits / 10) (scale + 1)
    else (digits, scale)

/-- The digits and the power of ten of the shortest decimal, for a double that is not zero. -/
def shortest (d : Double) : Nat × Int :=
  let lead := d.leadingExponent
  let attempt (extra : Nat) : Option (Nat × Int) :=
    let scale := lead - extra
    (d.interval scale).nearest?.map fun n => (n, scale)
  match (List.range 17).findSome? attempt with
  | some (digits, scale) => stripZeros 20 digits scale
  | none => (0, 0)

end EntityModel.Double
