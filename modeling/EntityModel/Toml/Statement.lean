import EntityModel.Toml.Word

/-!
# TOML statements

A document is a list of lines. A line gives a value to a dotted key, opens a table, or says
nothing. A value is a string, a switch, a number, a moment in time, a list or an inline table. Line
ends may stand between all the parts of a list or inline table, but not inside a key.

Results:
* `apart_irrefl`: no key is apart from itself, so an inline table gives no key twice.
-/
namespace EntityModel.Toml

open Text (Scan)

/-- A value. No configuration needs what a number or a moment says. -/
inductive Value where
  | text (value : String)
  | switch (value : Bool)
  | number
  | moment
  | list (items : List Value)
  | table (entries : List (List String × Value))

/-- What a line says. -/
inductive Statement where
  | assign (key : List String) (value : Value)
  | openTable (key : List String)
  | openTableItem (key : List String)

/-- The text after blanks. -/
def skipSpace (cs : List Char) : List Char := cs.dropWhile isSpace

/-- The text after a comment, if one starts here: its line end is left. -/
def skipComment : List Char → Option (List Char)
  | '#' :: rest =>
    let rest := rest.dropWhile isTextChar
    if rest.isEmpty || (lineEnd? rest).isSome then some rest else none
  | cs => some cs

/-- The text after the blanks, the comment and the line end that close a line. -/
def endLine? (cs : List Char) : Option (List Char) := do
  let rest ← skipComment (skipSpace cs)
  if rest.isEmpty then some [] else (lineEnd? rest).map Prod.snd

/-- The text after blanks, comments and line ends, from inside a comment or outside. -/
def skipGaps : Bool → List Char → Option (List Char)
  | _, [] => some []
  | _, '\r' :: '\n' :: rest => skipGaps false rest
  | inComment, c :: rest =>
    if c = '\n' then skipGaps false rest
    else if inComment then if isTextChar c then skipGaps true rest else none
    else if isSpace c then skipGaps false rest
    else if c = '#' then skipGaps true rest
    else some (c :: rest)

/-- The text after blanks, comments and line ends. -/
def skipToToken (cs : List Char) : Option (List Char) := skipGaps false cs

/-- The most containers inside each other, and the most parts of a key. -/
def maxDepth : Nat := 80

/-! ## Keys -/

/-- The character may stand in a key without quotes. -/
def isKeyChar (c : Char) : Bool := c.isAlphanum || c == '_' || c == '-'

/-- One part of a key. -/
def keyPart (cs : List Char) : Option (String × List Char) :=
  let bare := cs.takeWhile isKeyChar
  if bare.isEmpty then lineString cs else some (String.ofList bare, cs.dropWhile isKeyChar)

/-- A dotted key of so many parts at most, with blanks around them. -/
def key : Nat → Scan (List String)
  | 0, _ => none
  | fuel + 1, cs => do
    let (part, rest) ← keyPart (skipSpace cs)
    match skipSpace rest with
    | '.' :: rest => do
      let (more, rest) ← key fuel rest
      some (part :: more, rest)
    | rest => some ([part], rest)

/-- Two keys can stand in one table: neither leads through what the other names. -/
def apart (a b : List String) : Bool := !a.isPrefixOf b && !b.isPrefixOf a

/-! ## Values -/

/-- Items with commas between them, up to a closing bracket; a comma may follow the last. -/
def items {α : Type} (item : Scan α) (close : Char) : Nat → Scan (List α)
  | 0, _ => none
  | fuel + 1, cs => do
    match ← skipToToken cs with
    | [] => none
    | c :: rest =>
      if c = close then some ([], rest)
      else do
        let (first, rest) ← item (c :: rest)
        match ← skipToToken rest with
        | [] => none
        | c :: rest =>
          if c = close then some ([first], rest)
          else if c = ',' then do
            let (more, rest) ← items item close fuel rest
            some (first :: more, rest)
          else none

/-- A key, an equals sign and a value, with a gap on either side of the sign. -/
def entry (skipGap : List Char → Option (List Char)) (value : Scan Value) :
    Scan (List String × Value) := fun cs => do
  let (name, rest) ← key maxDepth cs
  match ← skipGap rest with
  | '=' :: rest => do
    let (v, rest) ← value (← skipGap rest)
    some ((name, v), rest)
  | _ => none

/-- A value in one word. -/
def wordValue (cs : List Char) : Option (Value × List Char) :=
  let (word, rest) := splitWord cs
  if word = ['t', 'r', 'u', 'e'] then some (.switch true, rest)
  else if word = ['f', 'a', 'l', 's', 'e'] then some (.switch false, rest)
  else if isMoment word then some (.moment, rest)
  else if isNumber word then some (.number, rest)
  else none

/-- A value with at most `depth` containers inside each other. -/
def value : Nat → Scan Value
  | _, '"' :: rest => (string ('"' :: rest)).map fun (s, rest) => (.text s, rest)
  | _, '\'' :: rest => (string ('\'' :: rest)).map fun (s, rest) => (.text s, rest)
  | depth + 1, '[' :: rest => do
    let (found, rest) ← items (value depth) ']' (rest.length + 1) rest
    some (.list found, rest)
  | depth + 1, '\x7b' :: rest => do
    let (found, rest) ← items (entry skipToToken (value depth)) '\x7d' (rest.length + 1) rest
    if (found.map Prod.fst).Pairwise (apart · ·) then some (.table found, rest) else none
  | _, cs => wordValue cs

/-! ## Lines -/

/-- The key in the header of a table. -/
def header (close : List Char) (cs : List Char) : Option (List String × List Char) := do
  let (name, rest) ← key maxDepth cs
  if close.isPrefixOf rest then some (name, rest.drop close.length) else none

/-- The statement that a line with content makes. -/
def statement : Scan Statement
  | '[' :: '[' :: rest =>
    (header [']', ']'] rest).map fun (name, rest) => (.openTableItem name, rest)
  | '[' :: rest => (header [']'] rest).map fun (name, rest) => (.openTable name, rest)
  | cs =>
    (entry (some ∘ skipSpace) (value maxDepth) cs).map fun ((name, v), rest) =>
      (.assign name v, rest)

/-- The statements of at most `fuel` lines. -/
def lines : Nat → List Char → Option (List Statement)
  | 0, _ => none
  | fuel + 1, cs => do
    match ← skipToToken cs with
    | [] => some []
    | cs => do
      let (first, rest) ← statement cs
      let more ← lines fuel (← endLine? rest)
      some (first :: more)

/-- The statements of a document, which a byte order mark may precede. -/
def statements? (text : String) : Option (List Statement) :=
  let cs := match text.toList with
    | '\ufeff' :: rest => rest
    | cs => cs
  lines (cs.length + 1) cs

theorem apart_irrefl (a : List String) : apart a a = false := by
  simp [apart]

end EntityModel.Toml
