import EntityModel.Proofs.Name
import EntityModel.Selection
import EntityModel.Text.Scan

/-!
# Selections read back

A text of selections has one field in a line: a name, or a name with a block of the same kind in braces
behind it. A name ends before a blank, a line end or a brace, and none of these may stand in it, so a
text of well-named selections is the text of no others.

Results:
* `Reader.fields_sound`: a text is read as the selections that it is the text of.
* `Reader.fields_listText`: selections are read back from their text, up to what follows it.
* `parse?_eq_some_iff`: the text of well-named selections, and no other, reads as these.
-/
namespace EntityModel.Selection

open Name (startsIdent continuesIdent IsGraphQLName)

/-! ## The reader -/

namespace Reader

open Text (Scan)

/-- A name, up to the first character that cannot stand in it. -/
def name : Scan String
  | [] => none
  | c :: rest =>
    if startsIdent c then
      some (String.ofList (c :: rest.takeWhile continuesIdent), rest.dropWhile continuesIdent)
    else none

/-- A field: a name, and a block behind it or none. What is in the block is read by `inside`, unless
the block is empty. -/
def item (inside : Scan (List Selection)) : Scan Selection := fun cs =>
  match name cs with
  | none => none
  | some (word, ' ' :: '\x7b' :: '\x7d' :: rest) => some (.nested word [], rest)
  | some (word, ' ' :: '\x7b' :: rest) =>
    match inside rest with
    | some (children, '\x7d' :: rest) => some (.nested word children, rest)
    | _ => none
  | some (word, rest) => some (.leaf word, rest)

/-- At least one field, one in a line. Every field takes a character at least, so the length of the
text bounds how often this is entered. -/
def fields : Nat → Scan (List Selection)
  | 0, _ => none
  | fuel + 1, cs =>
    match item (fields fuel) cs with
    | none => none
    | some (first, '\n' :: rest) => (fields fuel rest).map fun (more, rest) => (first :: more, rest)
    | some (first, rest) => some ([first], rest)

end Reader

/-- The selections that a text stands for. -/
def parse? (text : String) : Option (List Selection) :=
  if text = "" then some []
  else
    match Reader.fields text.length text.toList with
    | some (selections, []) => some selections
    | _ => none

/-- Every field has a name of GraphQL. -/
inductive Named : Selection → Prop
  | leaf {name : String} : IsGraphQLName name → Named (.leaf name)
  | nested {name : String} {children : List Selection} : IsGraphQLName name →
      (∀ child ∈ children, Named child) → Named (.nested name children)

/-! ## Texts -/

theorem toList_nested (name : String) (children : List Selection) :
    (nested name children).text.toList
      = name.toList ++ ' ' :: '\x7b' :: ((listText children).toList ++ ['\x7d']) := by
  have htext : (nested name children).text = name ++ " \x7b" ++ listText children ++ "\x7d" := rfl
  have hopen : " \x7b".toList = [' ', '\x7b'] := rfl
  have hclose : "\x7d".toList = ['\x7d'] := rfl
  simp [htext, hopen, hclose]

theorem listText_singleton (selection : Selection) : listText [selection] = selection.text := by
  simp [listText, textsOf]

theorem toList_listText_cons (first : Selection) {more : List Selection} (h : more ≠ []) :
    (listText (first :: more)).toList = first.text.toList ++ '\n' :: (listText more).toList := by
  have hmore : textsOf more ≠ [] := by simpa [textsOf_eq_map] using h
  have hline : "\n".toList = ['\n'] := rfl
  rw [listText, textsOf, String.intercalate_cons_of_ne_nil hmore]
  simp [hline, listText]

/-- The text of a field starts with its name. -/
theorem toList_text (selection : Selection) :
    ∃ back, selection.text.toList = selection.name.toList ++ back := by
  cases selection with
  | leaf name => exact ⟨[], by simp [text, Selection.name]⟩
  | nested name children => exact ⟨_, toList_nested name children⟩

theorem Named.name {selection : Selection} (h : Named selection) :
    IsGraphQLName selection.name := by
  cases h with
  | leaf hw => exact hw
  | nested hw _ => exact hw

/-- The text of well-named selections starts as a name does. -/
theorem listText_head {first : Selection} (h : Named first) (more : List Selection) :
    ∃ c rest, (listText (first :: more)).toList = c :: rest ∧ startsIdent c = true := by
  obtain ⟨c, rest, hword, hc, -⟩ := h.name
  obtain ⟨back, hback⟩ := toList_text first
  have hstarts : startsIdent c = true := by simpa [startsIdent] using hc
  cases more with
  | nil => exact ⟨c, rest ++ back, by rw [listText_singleton, hback, hword, List.cons_append], hstarts⟩
  | cons next more =>
    exact ⟨c, _, by rw [toList_listText_cons first (List.cons_ne_nil _ _), hback, hword,
      List.cons_append, List.cons_append], hstarts⟩

namespace Reader

open Text (Scan)

/-! ## What is read is what is written -/

theorem name_sound {cs rest : List Char} {word : String} (h : name cs = some (word, rest)) :
    cs = word.toList ++ rest ∧ IsGraphQLName word := by
  cases cs with
  | nil => cases h
  | cons c cs =>
    rw [name] at h
    split at h
    · next hc =>
      cases h
      have hmore := List.all_eq_true.1 (List.all_takeWhile (p := continuesIdent) (l := cs))
      refine ⟨by simp [List.takeWhile_append_dropWhile], c, cs.takeWhile continuesIdent, by simp, ?_, ?_⟩
      · simpa [startsIdent] using hc
      · intro d hd
        simpa [continuesIdent] using hmore d hd
    · cases h

theorem item_sound {inside : Scan (List Selection)} {cs rest : List Char} {selection : Selection}
    (hinside : ∀ {cs rest : List Char} {children : List Selection},
      inside cs = some (children, rest) →
        cs = (listText children).toList ++ rest ∧ ∀ child ∈ children, Named child)
    (h : item inside cs = some (selection, rest)) :
    cs = selection.text.toList ++ rest ∧ Named selection := by
  unfold item at h
  split at h
  · cases h
  · next word rest hname =>
    cases h
    obtain ⟨rfl, hw⟩ := name_sound hname
    exact ⟨by simp [toList_nested, listText, textsOf], .nested hw (by simp)⟩
  · next word rest hname =>
    split at h
    · next children rest hin =>
      cases h
      obtain ⟨rfl, hw⟩ := name_sound hname
      obtain ⟨rfl, hchildren⟩ := hinside hin
      exact ⟨by simp [toList_nested], .nested hw hchildren⟩
    · cases h
  · next word rest hname =>
    cases h
    obtain ⟨rfl, hw⟩ := name_sound hname
    exact ⟨rfl, .leaf hw⟩

/-- What is read is well named, and the text read is its text. -/
theorem fields_sound {fuel : Nat} {cs rest : List Char} {selections : List Selection}
    (h : fields fuel cs = some (selections, rest)) :
    cs = (listText selections).toList ++ rest ∧ selections ≠ [] ∧
      ∀ selection ∈ selections, Named selection := by
  induction fuel generalizing cs rest selections with
  | zero => cases h
  | succ fuel ih =>
    have hinside {cs rest : List Char} {children : List Selection}
        (hin : fields fuel cs = some (children, rest)) :
        cs = (listText children).toList ++ rest ∧ ∀ child ∈ children, Named child :=
      ⟨(ih hin).1, (ih hin).2.2⟩
    rw [fields] at h
    split at h
    · cases h
    · next first rest hitem =>
      obtain ⟨⟨more, rest⟩, hmore, he⟩ := Option.map_eq_some_iff.1 h
      cases he
      obtain ⟨rfl, hfirst⟩ := item_sound hinside hitem
      obtain ⟨rfl, hne, hnamed⟩ := ih hmore
      refine ⟨by simp [toList_listText_cons first hne], List.cons_ne_nil _ _, ?_⟩
      exact List.forall_mem_cons.2 ⟨hfirst, hnamed⟩
    · next first rest hitem =>
      cases h
      obtain ⟨rfl, hfirst⟩ := item_sound hinside hitem
      exact ⟨by rw [listText_singleton], List.cons_ne_nil _ _, by simpa using hfirst⟩

/-! ## What is written is read -/

/-- The text ends a list of fields: it starts, if at all, with a closing brace. -/
def Ends (rest : List Char) : Prop := ∀ c, rest.head? = some c → c = '\x7d'

theorem name_append {word : String} (hw : IsGraphQLName word) (rest : List Char)
    (hrest : ∀ c, rest.head? = some c → continuesIdent c = false) :
    name (word.toList ++ rest) = some (word, rest) := by
  obtain ⟨first, more, hword, hfirst, hmore⟩ := hw
  have hcontinues : ∀ c ∈ more, continuesIdent c = true := by simpa [continuesIdent] using hmore
  have hstarts : startsIdent first = true := by simpa [startsIdent] using hfirst
  rw [hword, List.cons_append, name, if_pos hstarts, Text.takeWhile_exact hcontinues hrest,
    Text.dropWhile_exact hcontinues hrest, ← hword, String.ofList_toList]

/-- A field is read from its text when what is in its block is. Behind a field stands the next line,
or what ends the list. -/
theorem item_text {inside : Scan (List Selection)} {selection : Selection} {rest : List Char}
    (hnamed : Named selection) (hrest : ∀ c, rest.head? = some c → c = '\n' ∨ c = '\x7d')
    (hinside : ∀ name children rest, selection = .nested name children → children ≠ [] →
      inside ((listText children).toList ++ '\x7d' :: rest) = some (children, '\x7d' :: rest)) :
    item inside (selection.text.toList ++ rest) = some (selection, rest) := by
  cases hnamed with
  | @leaf word hw =>
    have hname := name_append hw rest (by
      intro c hc
      rcases hrest c hc with rfl | rfl <;> rfl)
    rw [text, item, hname]
    cases rest with
    | nil => rfl
    | cons c rest => rcases hrest c rfl with rfl | rfl <;> rfl
  | @nested word children hw hchildren =>
    have hname := name_append hw (' ' :: '\x7b' :: ((listText children).toList ++ '\x7d' :: rest))
      (by rintro c ⟨⟩; rfl)
    rw [toList_nested, List.append_assoc, List.cons_append, List.cons_append, List.append_assoc,
      List.singleton_append, item, hname]
    cases children with
    | nil => rfl
    | cons first more =>
      have hin := hinside word (first :: more) rest rfl (List.cons_ne_nil _ _)
      -- the block starts as a name does, and not with the brace that closes it
      obtain ⟨c, back, hback, hc⟩ := listText_head (hchildren first (List.mem_cons_self ..)) more
      have hbrace : c ≠ '\x7d' := by
        rintro rfl
        cases hc
      rw [hback, List.cons_append] at hin ⊢
      simp [hbrace, hin]

/-- The text of well-named selections is read back, up to what ends it. -/
theorem fields_listText {fuel : Nat} {selections : List Selection} (hne : selections ≠ [])
    (hnamed : ∀ selection ∈ selections, Named selection)
    (hfuel : (listText selections).toList.length ≤ fuel) (rest : List Char) (hrest : Ends rest) :
    fields fuel ((listText selections).toList ++ rest) = some (selections, rest) := by
  induction fuel generalizing selections rest with
  | zero =>
    obtain ⟨first, more, rfl⟩ := List.exists_cons_of_ne_nil hne
    obtain ⟨c, back, hback, -⟩ := listText_head (hnamed first (List.mem_cons_self ..)) more
    simp [hback] at hfuel
  | succ fuel ih =>
    obtain ⟨first, more, rfl⟩ := List.exists_cons_of_ne_nil hne
    have hfirst := hnamed first (List.mem_cons_self ..)
    have hmore := fun other ho => hnamed other (List.mem_cons_of_mem first ho)
    have hinside (hlength : first.text.toList.length ≤ fuel + 1) (name : String)
        (children : List Selection) (rest : List Char) (hblock : first = .nested name children)
        (hchildren : children ≠ []) :
        fields fuel ((listText children).toList ++ '\x7d' :: rest) = some (children, '\x7d' :: rest) := by
      subst hblock
      rw [toList_nested] at hlength
      simp only [List.length_append, List.length_cons] at hlength
      cases hfirst with
      | nested _ hall => exact ih hchildren hall (by omega) _ (by rintro c ⟨⟩; rfl)
    rw [fields]
    cases more with
    | nil =>
      rw [listText_singleton] at hfuel ⊢
      rw [item_text hfirst (fun c hc => .inr (hrest c hc)) (hinside hfuel)]
      cases rest with
      | nil => rfl
      | cons c rest =>
        obtain rfl := hrest c rfl
        rfl
    | cons next more =>
      rw [toList_listText_cons first (List.cons_ne_nil _ _)] at hfuel ⊢
      simp only [List.length_append, List.length_cons] at hfuel
      rw [List.append_assoc, List.cons_append, item_text hfirst (by rintro c ⟨⟩; exact .inl rfl)
        (hinside (by omega))]
      simp only [ih (List.cons_ne_nil _ _) hmore (by omega) rest hrest, Option.map_some]

end Reader

theorem listText_eq_empty_iff {selections : List Selection}
    (hnamed : ∀ selection ∈ selections, Named selection) :
    listText selections = "" ↔ selections = [] := by
  cases selections with
  | nil => simp [listText, textsOf]
  | cons first more =>
    obtain ⟨c, rest, htext, -⟩ := listText_head (hnamed first (List.mem_cons_self ..)) more
    simp [← String.toList_eq_nil_iff, htext]

/-- **Reading.** The text of well-named selections, and no other, reads as these. -/
theorem parse?_eq_some_iff {text : String} {selections : List Selection} :
    parse? text = some selections ↔
      text = listText selections ∧ ∀ selection ∈ selections, Named selection := by
  constructor
  · intro h
    unfold parse? at h
    split at h
    · next hempty =>
      cases h
      exact ⟨hempty, by simp⟩
    · split at h
      · next hread =>
        cases h
        obtain ⟨htext, -, hnamed⟩ := Reader.fields_sound hread
        exact ⟨String.toList_inj.1 (by simpa using htext), hnamed⟩
      · cases h
  · rintro ⟨rfl, hnamed⟩
    unfold parse?
    split
    · next hempty => rw [(listText_eq_empty_iff hnamed).1 hempty]
    · next hne =>
      have hsome : selections ≠ [] := fun hnil => hne ((listText_eq_empty_iff hnamed).2 hnil)
      have hread := Reader.fields_listText hsome hnamed (Nat.le_of_eq String.length_toList)
        [] (by rintro c ⟨⟩)
      rw [List.append_nil] at hread
      rw [hread]

end EntityModel.Selection
