import EntityModel.Toml.Moment
import EntityModel.Toml.Number
import EntityModel.Toml.Text

/-!
# TOML words

A word is a value without quotes or brackets: it ends before the characters that part values. A
blank ends it too, unless more of a word comes after: so a date and its time are one word.

Results:
* `splitWord_append`: a word and the rest make up the text.
-/
namespace EntityModel.Toml

/-- The character may stand in a word. -/
def isWordChar (c : Char) : Bool :=
  !(isSpace c || ['=', ',', '[', ']', '\x7b', '\x7d', '#', '\r', '\n'].contains c)

/-- More of a word follows after blanks; a quote begins a value of its own. -/
def resumes (cs : List Char) : Bool :=
  match cs.dropWhile isSpace with
  | [] => false
  | c :: _ => isWordChar c && c != '"' && c != '\''

/-- The word at the front of a text, and the rest. -/
def splitWord : List Char → List Char × List Char
  | [] => ([], [])
  | c :: rest =>
    if isWordChar c || (isSpace c && resumes rest) then
      let (word, after) := splitWord rest
      (c :: word, after)
    else ([], c :: rest)

theorem splitWord_append (cs : List Char) : (splitWord cs).1 ++ (splitWord cs).2 = cs := by
  induction cs with
  | nil => rfl
  | cons c rest ih =>
    rw [splitWord]
    split <;> simp_all

end EntityModel.Toml
