import EntityModel.Text.Scan

/-!
# TOML strings

The four kinds of string: basic ones with escapes, literal ones without, and the multi-line form
of each between three quotes. No string holds a control character other than the tab; the
multi-line forms hold line ends too.
-/
namespace EntityModel.Toml

open Text (Scan hexValue?)

/-- The character may stand in a string or comment. -/
def isTextChar (c : Char) : Bool := c == '\t' || (0x20 ≤ c.toNat && c.toNat != 0x7F)

/-- The character may stand between tokens of a line. -/
def isSpace (c : Char) : Bool := c == ' ' || c == '\t'

/-- The character whose code point is written with a number of hexadecimal digits. -/
def codePoint (width : Nat) : Scan Char := fun cs => do
  let digits ← (cs.take width).mapM hexValue?
  let n := digits.foldl (fun n d => n * 16 + d) 0
  if digits.length = width ∧ n.isValidChar then some (Char.ofNat n, cs.drop width) else none

/-- The character that an escape stands for, after its backslash. -/
def escape : Scan Char
  | [] => none
  | c :: rest =>
    if c = '"' ∨ c = '\\' then some (c, rest)
    else if c = 'b' then some ('\x08', rest)
    else if c = 't' then some ('\t', rest)
    else if c = 'n' then some ('\n', rest)
    else if c = 'f' then some ('\x0c', rest)
    else if c = 'r' then some ('\r', rest)
    else if c = 'e' then some ('\x1b', rest)
    else if c = 'x' then codePoint 2 rest
    else if c = 'u' then codePoint 4 rest
    else if c = 'U' then codePoint 8 rest
    else none

/-- A line end. -/
def lineEnd? : List Char → Option (List Char × List Char)
  | '\n' :: rest => some (['\n'], rest)
  | '\r' :: '\n' :: rest => some (['\r', '\n'], rest)
  | _ => none

/-- The text without a line end at its front. -/
def skipLineEnd (cs : List Char) : List Char :=
  match lineEnd? cs with
  | some (_, rest) => rest
  | none => cs

/-- The rest of a basic string after its quote. -/
def basicBody : Nat → Scan (List Char)
  | 0, _ => none
  | _, [] => none
  | fuel + 1, c :: rest =>
    if c = '"' then some ([], rest)
    else do
      let (c, rest) ←
        if c = '\\' then escape rest else if isTextChar c then some (c, rest) else none
      let (more, rest) ← basicBody fuel rest
      some (c :: more, rest)

/-- The rest of a literal string after its apostrophe. -/
def literalBody : Scan (List Char)
  | [] => none
  | c :: rest =>
    if c = '\'' then some ([], rest)
    else if isTextChar c then (literalBody rest).map fun (more, rest) => (c :: more, rest)
    else none

/-- The quotes at the front of a text, when they end a multi-line string: three close it, and up
to two before them belong to it. -/
def closing? (quote : Char) (cs : List Char) : Option (List Char × List Char) :=
  let run := min 5 (cs.takeWhile (· == quote)).length
  if 3 ≤ run then some (List.replicate (run - 3) quote, cs.drop run) else none

/-- The text after blanks and line ends. -/
def skipBlankLines : List Char → List Char
  | '\r' :: '\n' :: rest => skipBlankLines rest
  | c :: rest => if c == '\n' || isSpace c then skipBlankLines rest else c :: rest
  | [] => []

/-- The text after a backslash at the end of a line, which takes the blanks and line ends that
follow with it. -/
def continuation? (cs : List Char) : Option (List Char) :=
  (lineEnd? (cs.dropWhile isSpace)).map fun (_, rest) => skipBlankLines rest

/-- The rest of a multi-line string after its quotes; only the basic form has escapes. -/
def multiBody (quote : Char) (escapes : Bool) : Nat → Scan (List Char)
  | 0, _ => none
  | _, [] => none
  | fuel + 1, c :: rest =>
    match closing? quote (c :: rest) with
    | some closed => some closed
    | none =>
      match lineEnd? (c :: rest) with
      | some (ended, rest) => do
        let (more, rest) ← multiBody quote escapes fuel rest
        some (ended ++ more, rest)
      | none =>
        if escapes && c == '\\' then
          match continuation? rest with
          | some rest => multiBody quote escapes fuel rest
          | none => do
            let (c, rest) ← escape rest
            let (more, rest) ← multiBody quote escapes fuel rest
            some (c :: more, rest)
        else if isTextChar c then do
          let (more, rest) ← multiBody quote escapes fuel rest
          some (c :: more, rest)
        else none

/-- A string on one line. -/
def lineString : Scan String
  | '"' :: rest => (basicBody (rest.length + 1) rest).map fun (cs, rest) => (String.ofList cs, rest)
  | '\'' :: rest => (literalBody rest).map fun (cs, rest) => (String.ofList cs, rest)
  | _ => none

/-- A string of any kind. -/
def string : Scan String
  | '"' :: '"' :: '"' :: rest =>
    let body := skipLineEnd rest
    (multiBody '"' true (body.length + 1) body).map fun (cs, rest) => (String.ofList cs, rest)
  | '\'' :: '\'' :: '\'' :: rest =>
    let body := skipLineEnd rest
    (multiBody '\'' false (body.length + 1) body).map fun (cs, rest) => (String.ofList cs, rest)
  | cs => lineString cs

end EntityModel.Toml
