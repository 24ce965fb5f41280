import EntityModel.Text.Scan

/-!
# TOML numbers

Which words are numbers: integers, decimal or in one of three bases that a prefix names, fractions,
and the words for infinity and for no number. Underscores stand between digits.

No value is computed, and what only its computation would show is let pass: an integer may be of
any size, may have no digits after its prefix, and may go on with anything after the first
character that follows an underscore.

Results:
* `isNumber_leadingZero`: no other digit follows a leading zero.
* `underscoresFit_plain`: without underscores there is nothing to fit.
-/
namespace EntityModel.Toml

open Text (hexValue?)

/-- The character is a digit of some base. -/
def isAnyDigit (c : Char) : Bool := (hexValue? c).isSome

/-- The character is a digit of base eight. -/
def isOctalDigit (c : Char) : Bool := '0' ≤ c && c ≤ '7'

/-- The character is a digit of base two. -/
def isBinaryDigit (c : Char) : Bool := c == '0' || c == '1'

/-- Every underscore stands between digits; `afterDigit` says whether a digit came before. -/
def underscoresFit (isDigit : Char → Bool) : Bool → List Char → Bool
  | _, [] => true
  | afterDigit, c :: rest =>
    if c = '_' then afterDigit && rest.head?.any isDigit && underscoresFit isDigit false rest
    else underscoresFit isDigit (isDigit c) rest

/-- Digits of one base. -/
def isBased (isDigit : Char → Bool) (cs : List Char) : Bool :=
  cs.all (fun c => isDigit c || c == '_') && underscoresFit isDigit false cs

/-- The character may stand in a run of digits. -/
def isRunChar (c : Char) : Bool := c.isDigit || c == '_'

/-- The text after a run that holds a digit. -/
def skipRun (cs : List Char) : Option (List Char) :=
  if (cs.takeWhile isRunChar).any Char.isDigit then some (cs.dropWhile isRunChar) else none

/-- The text after a sign, if there is one. -/
def skipSign : List Char → List Char
  | [] => []
  | c :: rest => if c = '+' ∨ c = '-' then rest else c :: rest

/-- The text after a point and the run that must follow it. -/
def skipFraction : List Char → Option (List Char)
  | [] => some []
  | c :: rest => if c = '.' then skipRun rest else some (c :: rest)

/-- The text after the mark of a power of ten and the run that must follow it. -/
def skipExponent : List Char → Option (List Char)
  | [] => some []
  | c :: rest => if c = 'e' ∨ c = 'E' then skipRun (skipSign rest) else some (c :: rest)

/-- The run of digits at the front starts with a zero and has another digit. -/
def hasLeadingZero (cs : List Char) : Bool :=
  cs.head? == some '0' && 1 < ((cs.takeWhile isRunChar).filter Char.isDigit).length

/-- A decimal with a fraction or a power of ten. -/
def isFraction (cs : List Char) : Bool :=
  !hasLeadingZero cs && ((skipRun cs).bind skipFraction).bind skipExponent == some []

/-- The character makes a fraction of the number that it stands in. -/
def marksFraction (c : Char) : Bool := c == '.' || c == 'e' || c == 'E'

/-- A decimal integer. What follows an underscore may hold anything but a space. -/
def isInteger (cs : List Char) : Bool :=
  match cs.dropWhile Char.isDigit with
  | [] => cs == ['0'] || (!cs.isEmpty && cs.head? != some '0')
  | c :: rest => c == '_' && cs.head? != some '0' && !rest.contains ' '

/-- A number after its sign, if it has one. -/
def isDecimal (cs : List Char) : Bool :=
  cs == ['i', 'n', 'f'] || cs == ['n', 'a', 'n']
  || if cs.any marksFraction then isFraction cs && underscoresFit Char.isDigit false cs
    else isInteger cs && underscoresFit isAnyDigit false cs

/-- The word is a number. -/
def isNumber : List Char → Bool
  | '0' :: 'x' :: digits => isBased isAnyDigit digits
  | '0' :: 'o' :: digits => isBased isOctalDigit digits
  | '0' :: 'b' :: digits => isBased isBinaryDigit digits
  | '+' :: rest => isDecimal rest
  | '-' :: rest => isDecimal rest
  | cs => isDecimal cs

theorem underscoresFit_plain {isDigit : Char → Bool} {afterDigit : Bool} {cs : List Char}
    (h : '_' ∉ cs) : underscoresFit isDigit afterDigit cs = true := by
  induction cs generalizing afterDigit with
  | nil => rfl
  | cons c rest ih =>
    simp only [List.mem_cons, not_or] at h
    rw [underscoresFit, if_neg (fun e => h.1 e.symm)]
    exact ih h.2

theorem isNumber_leadingZero : isNumber ['0', '1'] = false := by decide

end EntityModel.Toml
