import EntityModel.Double.Shortest

/-!
# Doubles in decimal text

The shortest decimal of a double, written out in full where its leading digit is near the point
and with a power of ten elsewhere.

Results:
* `padded_length`: padding reaches the width.
-/
namespace EntityModel.Double

/-- Which numbers are written out in full. -/
structure TextStyle where
  /-- The least exponent of a leading digit that is written out in full. -/
  lowest : Int
  /-- The greatest one. -/
  highest : Int

/-- Digits with zeros in front, up to a width. -/
def padded (width : Nat) (digits : List Char) : List Char :=
  List.replicate (width - digits.length) '0' ++ digits

theorem padded_length {width : Nat} {digits : List Char} (h : digits.length ≤ width) :
    (padded width digits).length = width := by
  simp only [padded, List.length_append, List.length_replicate]
  omega

/-- All digits around the point, with at least one on each side. -/
def positional (digits : List Char) (scale : Int) : List Char :=
  if 0 ≤ scale then digits ++ List.replicate scale.toNat '0' ++ ['.', '0']
  else
    let after := (-scale).toNat
    let digits := padded (after + 1) digits
    digits.take (digits.length - after) ++ '.' :: digits.drop (digits.length - after)

/-- One digit before the point and a power of ten. -/
def scientific (digits : List Char) (lead : Int) : List Char :=
  let fraction := match digits.drop 1 with
    | [] => []
    | rest => '.' :: rest
  let sign := if lead < 0 then '-' else '+'
  digits.take 1 ++ fraction ++ 'e' :: sign :: Nat.toDigits 10 lead.natAbs

/-- The text of a double. -/
def text (style : TextStyle) (d : Double) : List Char :=
  let sign := if d.isNegative then ['-'] else []
  if d.isZero then sign ++ ['0', '.', '0']
  else
    let (n, scale) := d.shortest
    let digits := Nat.toDigits 10 n
    let lead := scale + digits.length - 1
    sign ++ if style.lowest ≤ lead ∧ lead ≤ style.highest then positional digits scale
      else scientific digits lead

end EntityModel.Double
