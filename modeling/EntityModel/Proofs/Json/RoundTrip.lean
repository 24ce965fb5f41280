import EntityModel.Proofs.Json.Tokens
import EntityModel.Proofs.Keyed

/-!
# Values read back

The compact text of a value, read again, is the value. This holds of every value without doubles
whose whole numbers have 64 bits, whose members are in ascending order, and whose containers do
not stand deeper inside each other than the reader goes.

The proof follows the containers: items are read one by one up to a comma or the closing bracket,
and neither goes on with a number.

Results:
* `separated_joined`, `container_joined`: items and members that read back one by one read back as
  a list.
* `value_chars`: a value reads back from its text, whatever follows.
* `parse?_render`: a value reads back from the whole text.
-/
namespace EntityModel.Json

/-- The value has at most `depth` containers inside each other, and its text keeps it exactly:
there are no doubles, whole numbers fit 64 bits, and members are in ascending order, as insertion
keeps them. -/
inductive Exact : Nat → Json → Prop
  | null {depth : Nat} : Exact depth .null
  | bool {depth : Nat} (value : Bool) : Exact depth (.bool value)
  | int {depth : Nat} {n : Int} : -9223372036854775808 ≤ n → n < 18446744073709551616 →
      Exact depth (.int n)
  | str {depth : Nat} (value : String) : Exact depth (.str value)
  | arr {depth : Nat} {items : List Json} : (∀ item ∈ items, Exact depth item) →
      Exact (depth + 1) (.arr items)
  | obj {depth : Nat} {members : Members} : Keyed.Ascending members →
      (∀ entry ∈ members, Exact depth entry.2) → Exact (depth + 1) (.obj members)

namespace Reader

open Text (Scan)

/-! ## Lists -/

/-- Pieces of text with commas between them. -/
def joined {α : Type} (write : α → List Char) : List α → List Char
  | [] => []
  | [item] => write item
  | item :: next :: rest => write item ++ ',' :: joined write (next :: rest)

/-- The scan reads back what was written of the item. -/
def Reads {α : Type} (scan : Scan α) (write : α → List Char) (item : α) : Prop :=
  ∀ rest, Ends rest → scan (write item ++ rest) = some (item, rest)

/-- The text starts with a character that is no blank and closes no container. -/
def Starts (cs : List Char) : Prop :=
  ∃ c rest, cs = c :: rest ∧ isSpace c = false ∧ c ≠ ']' ∧ c ≠ '\x7d'

section Lists

variable {α : Type} {scan : Scan α} {write : α → List Char} {close : Char}

theorem skipSpace_cons {c : Char} (hc : isSpace c = false) (rest : List Char) :
    skipSpace (c :: rest) = c :: rest := by
  simp [skipSpace, hc]

theorem length_le_joined {items : List α} (h : ∀ item ∈ items, Starts (write item)) :
    items.length ≤ (joined write items).length := by
  induction items with
  | nil => simp
  | cons item rest ih =>
    have hpos : 0 < (write item).length := by
      obtain ⟨c, cs, hcs, -⟩ := h item (List.mem_cons_self ..)
      rw [hcs]
      exact Nat.succ_pos _
    have hrest := ih fun other ho => h other (List.mem_cons_of_mem _ ho)
    cases rest with
    | nil => simp [joined]; omega
    | cons next rest =>
      simp only [joined, List.length_append, List.length_cons] at hrest ⊢
      omega

/-- Items that read back one by one read back as a list. -/
theorem separated_joined (hclose : close = ']' ∨ close = '\x7d') {items : List α} (hne : items ≠ [])
    (hread : ∀ item ∈ items, Reads scan write item) {fuel : Nat} (hfuel : items.length ≤ fuel)
    (rest : List Char) :
    separated scan close fuel (joined write items ++ close :: rest) = some (items, rest) := by
  have hspace : isSpace close = false := by rcases hclose with rfl | rfl <;> rfl
  have hends (tail : List Char) : Ends (close :: tail) := by rcases hclose with rfl | rfl <;> rfl
  have hcomma : ',' ≠ close := by rcases hclose with rfl | rfl <;> decide
  induction items generalizing fuel with
  | nil => exact absurd rfl hne
  | cons item more ih =>
    obtain ⟨fuel, rfl⟩ : ∃ n, fuel = n + 1 := ⟨fuel - 1, by simp at hfuel; omega⟩
    have hitem := hread item (List.mem_cons_self ..)
    cases more with
    | nil =>
      rw [joined, separated, hitem _ (hends rest)]
      simp [skipSpace_cons hspace]
    | cons next more =>
      have hmore := ih (List.cons_ne_nil _ _) (fun other ho => hread other (List.mem_cons_of_mem _ ho))
        (by simpa using hfuel)
      have hfirst := hitem (',' :: (joined write (next :: more) ++ close :: rest)) rfl
      rw [joined, List.append_assoc, List.cons_append, separated, hfirst]
      simp [skipSpace_cons (show isSpace ',' = false from rfl), hcomma, hmore]

theorem container_joined (hclose : close = ']' ∨ close = '\x7d') {items : List α}
    (hstart : ∀ item ∈ items, Starts (write item)) (hread : ∀ item ∈ items, Reads scan write item)
    (rest : List Char) :
    container scan close (joined write items ++ close :: rest) = some (items, rest) := by
  cases items with
  | nil =>
    have hspace : isSpace close = false := by rcases hclose with rfl | rfl <;> rfl
    simp [container, joined, skipSpace_cons hspace]
  | cons item more =>
    obtain ⟨c, cs, hcs, hspace, hne⟩ : Starts (joined write (item :: more) ++ close :: rest) := by
      obtain ⟨c, cs, hcs, hc⟩ := hstart item (List.mem_cons_self ..)
      cases more <;> exact ⟨c, _, by simp [joined, hcs]; rfl, hc⟩
    have hc : c ≠ close := by rcases hclose with rfl | rfl <;> simp [hne]
    have hlen := length_le_joined hstart
    have hfuel : (item :: more).length ≤ (joined write (item :: more) ++ close :: rest).length := by
      rw [List.length_append]
      omega
    have h := separated_joined hclose (List.cons_ne_nil item more) hread hfuel rest
    rw [hcs] at h ⊢
    rw [container, skipSpace_cons hspace]
    simp only [if_neg hc]
    exact h

end Lists

/-! ## Values -/

/-- How a member is written. -/
def memberChars (entry : String × Json) : List Char := quotedChars entry.1 ++ ':' :: entry.2.chars

theorem itemsChars_eq (items : List Json) : itemsChars items = joined chars items := by
  induction items with
  | nil => rfl
  | cons item rest ih =>
    cases rest with
    | nil => simp [itemsChars, joined]
    | cons next rest => rw [itemsChars, joined, ih]

theorem membersChars_eq (members : Members) : membersChars members = joined memberChars members := by
  induction members with
  | nil => rfl
  | cons entry rest ih =>
    obtain ⟨name, value⟩ := entry
    cases rest with
    | nil => simp [membersChars, joined, memberChars]
    | cons next rest => simp [membersChars, joined, memberChars, ih]

theorem digit_starts {c : Char} (hc : c = '-' ∨ c.isDigit = true) :
    isSpace c = false ∧ c ≠ ']' ∧ c ≠ '\x7d' ∧ c ≠ '[' ∧ c ≠ '\x7b' := by
  rcases hc with rfl | hc
  · decide
  · refine ⟨?_, ?_, ?_, ?_, ?_⟩
    · by_cases hs : isSpace c = true
      · simp only [isSpace, Bool.or_eq_true, beq_iff_eq] at hs
        rcases hs with ((rfl | rfl) | rfl) | rfl <;> cases hc
      · simpa using hs
    all_goals rintro rfl; cases hc

theorem chars_starts {depth : Nat} {v : Json} (h : v.Exact depth) : Starts v.chars := by
  cases h with
  | null => exact ⟨'n', _, rfl, by decide⟩
  | bool b => cases b <;> exact ⟨_, _, rfl, by decide⟩
  | @int _ n hlow hhigh =>
    obtain ⟨c, rest, hn, hc⟩ := intChars_head n
    have hc := digit_starts hc
    exact ⟨c, rest, hn, hc.1, hc.2.1, hc.2.2.1⟩
  | str s => exact ⟨'"', _, rfl, by decide⟩
  | arr => exact ⟨'[', _, rfl, by decide⟩
  | obj => exact ⟨'\x7b', _, rfl, by decide⟩

theorem memberChars_starts (entry : String × Json) : Starts (memberChars entry) :=
  ⟨'"', _, rfl, by decide⟩

/-- A text that opens no container is read as a scalar. -/
theorem value_eq_scalar {c : Char} (hspace : isSpace c = false) (harr : c ≠ '[') (hobj : c ≠ '\x7b')
    (depth : Nat) (rest : List Char) : value depth (c :: rest) = scalar (c :: rest) := by
  cases depth with
  | zero => rw [value, skipSpace_cons hspace]
  | succ depth =>
    rw [value, skipSpace_cons hspace]
    split
    · next h => cases h; exact absurd rfl harr
    · next h => cases h; exact absurd rfl hobj
    · rfl

theorem member_chars {depth : Nat} {entry : String × Json}
    (h : Reads (value depth) chars entry.2) : Reads (member (value depth)) memberChars entry := by
  intro rest hrest
  obtain ⟨name, v⟩ := entry
  have hname := stringBody_escaped name (':' :: (v.chars ++ rest))
  have hvalue := h rest hrest
  simp only [memberChars, quotedChars, List.cons_append, List.append_assoc, List.nil_append]
  rw [member, skipSpace_cons (show isSpace '"' = false from rfl)]
  simp [hname, skipSpace_cons (show isSpace ':' = false from rfl), hvalue]

/-- **Values.** A value reads back from its text. -/
theorem value_chars {depth : Nat} {v : Json} (h : v.Exact depth) : Reads (value depth) chars v := by
  induction h with
  | @null depth => intro rest _; exact value_eq_scalar rfl (by decide) (by decide) depth _
  | @bool depth b =>
    intro rest _
    cases b
    · exact value_eq_scalar rfl (by decide) (by decide) depth _
    · exact value_eq_scalar rfl (by decide) (by decide) depth _
  | @int depth n hlow hhigh =>
    intro rest hrest
    obtain ⟨c, cs, hn, hc⟩ := intChars_head n
    obtain ⟨hspace, -, -, harr, hobj⟩ := digit_starts hc
    have hread := scalar_intChars hlow hhigh hrest
    rw [hn, List.cons_append] at hread
    rw [chars, hn, List.cons_append, value_eq_scalar hspace harr hobj, hread]
  | @str depth s =>
    intro rest _
    have hread := stringBody_escaped s rest
    rw [chars, quotedChars, List.cons_append, value_eq_scalar rfl (by decide) (by decide), List.append_assoc]
    simp [scalar, hread]
  | @arr depth items hitems ih =>
    intro rest _
    have hread := container_joined (.inl rfl) (fun item hi => chars_starts (hitems item hi)) ih rest
    rw [chars, itemsChars_eq, List.cons_append, List.append_assoc, value,
      skipSpace_cons (show isSpace '[' = false from rfl)]
    simp [hread]
  | @obj depth members ha hmembers ih =>
    intro rest _
    have hread := container_joined (.inr rfl) (fun entry _ => memberChars_starts entry)
      (fun entry he => member_chars (ih entry he)) rest
    rw [chars, membersChars_eq, List.cons_append, List.append_assoc, value,
      skipSpace_cons (show isSpace '\x7b' = false from rfl)]
    simp [hread, object, Keyed.ofList_of_ascending ha]

end Reader

/-- **Round trip.** A value reads back from its compact text. -/
theorem parse?_render {v : Json} (h : v.Exact Reader.maxDepth) : parse? v.render = some v := by
  have hread := Reader.value_chars h [] rfl
  rw [List.append_nil] at hread
  simp only [parse?, render, String.toList_ofList, hread, Option.bind_eq_bind, Option.bind_some]
  rfl

end EntityModel.Json
