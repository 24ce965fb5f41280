/-!
# Pascal case

An ASCII name is cut into words at `_`, `-` and the space, which are dropped, between a
lower-case letter and an upper-case one, between a letter and a digit in either order, and before
the last of two upper-case letters that a lower-case one follows. In Pascal case each word has its
first character upper-cased and the rest lower-cased, and the words follow each other directly.

Results:
* `pascalFrom_length_le`: the form is never longer than the name.
-/
namespace EntityModel.Name

/-- The character separates words and belongs to none. -/
def isSeparator (c : Char) : Bool := c == '_' || c == '-' || c == ' '

/-- A word ends between `a` and `b`; `after` is what follows `b`. -/
def wordEndsBetween (a b : Char) (after : Option Char) : Bool :=
  (a.isLower && b.isUpper) || (a.isLower && b.isDigit) || (a.isUpper && b.isDigit)
    || (a.isDigit && b.isLower) || (a.isDigit && b.isUpper)
    || (a.isUpper && b.isUpper && after.any Char.isLower)

/-- A word ends after `a` when `rest` follows. -/
def wordEndsBefore (a : Char) : List Char → Bool
  | [] => false
  | b :: rest => wordEndsBetween a b rest.head?

/-- Pascal case of characters of which the first starts a word iff `start`. -/
def pascalFrom (start : Bool) : List Char → List Char
  | [] => []
  | c :: rest =>
    if isSeparator c then pascalFrom true rest
    else (if start then c.toUpper else c.toLower) :: pascalFrom (wordEndsBefore c rest) rest

/-- Pascal case of a name. -/
def pascal (name : String) : String := String.ofList (pascalFrom true name.toList)

theorem pascalFrom_length_le (start : Bool) (cs : List Char) :
    (pascalFrom start cs).length ≤ cs.length := by
  induction cs generalizing start with
  | nil => simp [pascalFrom]
  | cons c rest ih =>
    rw [pascalFrom]
    split
    · exact Nat.le_succ_of_le (ih _)
    · simpa using ih _

end EntityModel.Name
