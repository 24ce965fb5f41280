import EntityModel.Text.CaseTable

/-!
# Case of text

Full Unicode case mapping, character by character. One character may become several (`ß` is
upper-cased to `SS`). ASCII characters take the short way through `Char.toLower` and
`Char.toUpper`.

Results:
* `lower_append`: lower-casing works piece by piece.
* `lowerChar_ascii`, `upperChar_ascii`: an ASCII character has exactly one image.
-/
namespace EntityModel.Text

/-- The character that a run assigns to `c`, or `c` itself outside every run. -/
def shifted (runs : List CaseRun) (c : Char) : Char :=
  match runs.find? (·.covers c.toNat) with
  | some run => Char.ofNat (c.toNat + run.shift).toNat
  | none => c

/-- Lower-case form of a character. -/
def lowerChar (c : Char) : List Char :=
  if c.toNat < 128 then [c.toLower]
  else if c = 'İ' then ['i', '\u0307']
  else [shifted lowerRuns c]

/-- Upper-case form of a character. -/
def upperChar (c : Char) : List Char :=
  if c.toNat < 128 then [c.toUpper]
  else match upperExpansions.find? (·.1 == c.toNat) with
    | some (_, form) => form.map Char.ofNat
    | none => [shifted upperRuns c]

/-- Lower-case form of a text. -/
def lower (s : String) : String := String.ofList (s.toList.flatMap lowerChar)

/-- The text with its first character upper-cased and the rest untouched. -/
def capitalize (s : String) : String :=
  match s.toList with
  | [] => ""
  | first :: rest => String.ofList (upperChar first ++ rest)

theorem lower_append (s t : String) : lower (s ++ t) = lower s ++ lower t := by
  simp [lower, String.ofList_append]

theorem lowerChar_ascii {c : Char} (h : c.toNat < 128) : lowerChar c = [c.toLower] := by
  simp [lowerChar, h]

theorem upperChar_ascii {c : Char} (h : c.toNat < 128) : upperChar c = [c.toUpper] := by
  simp [upperChar, h]

end EntityModel.Text
