import Mathlib.Data.List.Infix

/-!
# Block strings

A block string of GraphQL stands between triples of quotes. It ends at the first triple that no
backslash escapes, and a reader that sees an escaped one goes on behind it. Which texts can stand in a
block string as they are is told from the text alone: with its escaped triples blotted out it has no
triple left, and its last character is neither a quote nor a backslash, either of which would run into
the closing triple.

Results:
* `clean_cons_iff`, `quotable_cons_iff`, `quotable_escaped_iff`: one character, or one escaped triple,
  in front of a text.
* `blockString?_eq_some_iff`: what is read is a quotable text, and what comes after the next triple.
-/
namespace EntityModel.Sdl

/-- What a block string opens and closes with. -/
def quotes : List Char := ['"', '"', '"']

/-- Reads a block string from behind its opening quotes: what stands in it, and what comes after its
closing quotes. These are the first that no backslash escapes. -/
def blockString? : List Char → Option (List Char × List Char)
  | '\\' :: '"' :: '"' :: '"' :: rest =>
    (blockString? rest).map fun (text, back) => ('\\' :: '"' :: '"' :: '"' :: text, back)
  | '"' :: '"' :: '"' :: rest => some ([], rest)
  | c :: rest => (blockString? rest).map fun (text, back) => (c :: text, back)
  | [] => none

/-- The text with a blank for each escaped triple of quotes. -/
def blotted : List Char → List Char
  | '\\' :: '"' :: '"' :: '"' :: rest => ' ' :: blotted rest
  | c :: rest => c :: blotted rest
  | [] => []

/-- There are no three quotes in the text, and its last character does not change what comes after. -/
structure Clean (text : List Char) : Prop where
  inner : ¬ quotes <:+: text
  quote : text.getLast? ≠ some '"'
  escape : text.getLast? ≠ some '\\'

/-- The text can stand in a block string as it is: escaped quotes apart it is clean. -/
def Quotable (text : List Char) : Prop := Clean (blotted text)

instance (text : List Char) : Decidable (Quotable text) :=
  decidable_of_iff (¬ quotes <:+: blotted text ∧ (blotted text).getLast? ≠ some '"' ∧
    (blotted text).getLast? ≠ some '\\') ⟨fun ⟨a, b, c⟩ => ⟨a, b, c⟩, fun h => ⟨h.1, h.2, h.3⟩⟩

theorem clean_nil : Clean [] := ⟨by decide, by decide, by decide⟩

theorem clean_cons_iff {c : Char} {text : List Char} : Clean (c :: text) ↔
    Clean text ∧ ¬ quotes <+: c :: text ∧ (text = [] → c ≠ '"' ∧ c ≠ '\\') := by
  have hinner : ¬ quotes <:+: c :: text ↔ ¬ quotes <+: c :: text ∧ ¬ quotes <:+: text := by
    rw [List.infix_cons_iff, not_or]
  cases text with
  | nil =>
    refine ⟨fun ⟨hi, hq, he⟩ => ⟨clean_nil, (hinner.1 hi).1, fun _ => ⟨?_, ?_⟩⟩, ?_⟩
    · rintro rfl; exact hq rfl
    · rintro rfl; exact he rfl
    · rintro ⟨h, hp, hc⟩
      exact ⟨hinner.2 ⟨hp, h.inner⟩, by simp [hc rfl], by simp [hc rfl]⟩
  | cons next rest =>
    have hlast : (c :: next :: rest).getLast? = (next :: rest).getLast? := List.getLast?_cons_cons
    constructor
    · rintro ⟨hi, hq, he⟩
      rw [hlast] at hq he
      exact ⟨⟨(hinner.1 hi).2, hq, he⟩, (hinner.1 hi).1, fun h => by cases h⟩
    · rintro ⟨⟨hi, hq, he⟩, hp, -⟩
      exact ⟨hinner.2 ⟨hp, hi⟩, hlast ▸ hq, hlast ▸ he⟩

theorem blotted_eq_nil_iff (text : List Char) : blotted text = [] ↔ text = [] := by
  induction text using blotted.induct with
  | case1 rest => simp [blotted]
  | case2 c rest h => rw [blotted.eq_2 c rest h]; simp
  | case3 => rfl

/-- A blot is no quote, so the text starts with as many quotes as before. -/
theorem prefix_blotted_iff (n : Nat) (text : List Char) :
    List.replicate n '"' <+: blotted text ↔ List.replicate n '"' <+: text := by
  induction text using blotted.induct generalizing n with
  | case1 rest => cases n <;> simp [blotted, List.replicate_succ, List.cons_prefix_cons]
  | case2 c rest h ih =>
    rw [blotted.eq_2 c rest h]
    cases n with
    | zero => simp
    | succ n => rw [List.replicate_succ, List.cons_prefix_cons, List.cons_prefix_cons, ih]
  | case3 => rfl

theorem quotable_escaped_iff (text : List Char) :
    Quotable ('\\' :: (quotes ++ text)) ↔ Quotable text := by
  have hblot : blotted ('\\' :: (quotes ++ text)) = ' ' :: blotted text := rfl
  rw [Quotable, hblot, clean_cons_iff]
  simp [Quotable, quotes, List.cons_prefix_cons]

/-- No escaped triple starts with the character. -/
def Unescaped (c : Char) (text : List Char) : Prop := c = '\\' → ¬ quotes <+: text

theorem unescaped_iff {c : Char} {text : List Char} :
    Unescaped c text ↔ ∀ more, c = '\\' → text = '"' :: '"' :: '"' :: more → False :=
  ⟨fun h more hc ht => h hc ⟨more, ht.symm⟩, fun h hc ⟨more, hm⟩ => h more hc hm.symm⟩

theorem Unescaped.of_append {c : Char} {text more : List Char} (h : Unescaped c (text ++ more)) :
    Unescaped c text :=
  fun hc hp => h hc (hp.trans (List.prefix_append text more))

theorem quotable_cons_iff {c : Char} {text : List Char} (h : Unescaped c text) :
    Quotable (c :: text) ↔
      Quotable text ∧ ¬ quotes <+: c :: text ∧ (text = [] → c ≠ '"' ∧ c ≠ '\\') := by
  have hblot : blotted (c :: text) = c :: blotted text := blotted.eq_2 c text (unescaped_iff.1 h)
  have hprefix : quotes <+: c :: blotted text ↔ quotes <+: c :: text :=
    hblot ▸ prefix_blotted_iff 3 (c :: text)
  rw [Quotable, hblot, clean_cons_iff, hprefix, blotted_eq_nil_iff, Quotable]

theorem blockString?_cons {c : Char} {text : List Char} (h : Unescaped c text)
    (h' : ¬ quotes <+: c :: text) :
    blockString? (c :: text) = (blockString? text).map fun (text, back) => (c :: text, back) := by
  refine blockString?.eq_3 c text (unescaped_iff.1 h) fun more hc ht => h' ?_
  rw [hc, ht]
  exact List.prefix_append quotes more

/-- A text that starts with quotes only together with quotes behind it is empty, or ends in a quote. -/
theorem Quotable.eq_nil_of_prefix {text back : List Char} (h : Quotable text)
    (hp : quotes <+: text ++ (quotes ++ back)) : text = [] := by
  have hnot : ¬ quotes <+: text := fun hq => h.inner ((prefix_blotted_iff 3 text).2 hq).isInfix
  have hstart : text <+: quotes :=
    (List.prefix_or_prefix_of_prefix hp (List.prefix_append text _)).resolve_left hnot
  have hall : ∀ start ∈ quotes.inits, Quotable start → start = [] := by decide
  exact hall text ((List.mem_inits ..).2 hstart) h

theorem blockString?_of_quotable {text : List Char} (h : Quotable text) (back : List Char) :
    blockString? (text ++ (quotes ++ back)) = some (text, back) := by
  induction text using blotted.induct with
  | case1 rest ih =>
    have hrest := ih ((quotable_escaped_iff rest).1 h)
    simp only [List.cons_append, blockString?, hrest, Option.map_some]
  | case2 c rest hplain ih =>
    obtain ⟨hrest, -, hlast⟩ := (quotable_cons_iff (unescaped_iff.2 hplain)).1 h
    -- the quotes behind the text can make a triple with its end only if that is empty
    have hescape : Unescaped c (rest ++ (quotes ++ back)) :=
      fun hc hp => (hlast (hrest.eq_nil_of_prefix hp)).2 hc
    have hclose : ¬ quotes <+: c :: (rest ++ (quotes ++ back)) :=
      fun hp => List.cons_ne_nil c rest (h.eq_nil_of_prefix hp)
    rw [List.cons_append, blockString?_cons hescape hclose, ih hrest]
    rfl
  | case3 => rfl

theorem quotable_of_blockString? {input text back : List Char}
    (h : blockString? input = some (text, back)) : input = text ++ (quotes ++ back) ∧ Quotable text := by
  induction input using blockString?.induct generalizing text with
  | case1 rest ih =>
    rw [blockString?] at h
    obtain ⟨⟨inner, behind⟩, hread, he⟩ := Option.map_eq_some_iff.1 h
    cases he
    obtain ⟨rfl, hq⟩ := ih hread
    exact ⟨rfl, (quotable_escaped_iff inner).2 hq⟩
  | case2 rest =>
    cases h
    exact ⟨rfl, clean_nil⟩
  | case3 c rest hescape hclose ih =>
    rw [blockString?.eq_3 c rest hescape hclose] at h
    obtain ⟨⟨inner, behind⟩, hread, he⟩ := Option.map_eq_some_iff.1 h
    cases he
    obtain ⟨rfl, hq⟩ := ih hread
    have hescape' : Unescaped c (inner ++ (quotes ++ back)) := unescaped_iff.2 hescape
    have hclose' : ¬ quotes <+: c :: (inner ++ (quotes ++ back)) := by
      rintro ⟨more, hm⟩
      obtain ⟨hc, hrest⟩ := List.cons.inj hm
      exact hclose more hc.symm hrest.symm
    refine ⟨rfl, (quotable_cons_iff hescape'.of_append).2 ⟨hq, ?_, ?_⟩⟩
    · exact fun hp => hclose' (hp.trans (List.prefix_append (c :: inner) _))
    · rintro rfl
      refine ⟨?_, ?_⟩
      · rintro rfl
        exact hclose' ⟨'"' :: back, rfl⟩
      · rintro rfl
        exact hescape' rfl (List.prefix_append quotes back)
  | case4 => cases h

/-- **Block strings.** What is read of a block string is a quotable text and what comes after the next
quotes. -/
theorem blockString?_eq_some_iff {input text back : List Char} :
    blockString? input = some (text, back) ↔ input = text ++ (quotes ++ back) ∧ Quotable text := by
  refine ⟨quotable_of_blockString?, ?_⟩
  rintro ⟨rfl, h⟩
  exact blockString?_of_quotable h back

example : ¬ Quotable "says \"hi\"".toList := by decide

example : Quotable "three \\\"\"\" escaped".toList := by decide

end EntityModel.Sdl
