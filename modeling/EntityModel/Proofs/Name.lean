import EntityModel.Name
import EntityModel.Proofs.Text
import EntityModel.Text.Case

/-!
# Names made of names

Type names and the names of root fields are put together from the names of schemas and fields. An
identifier is checked character by character, but for the two at its start. So when the front of a
name is known to start with no underscore, what is behind it only has to be made of characters that
may stand in an identifier.

Results:
* `identFault_append_iff`: when a text with something behind it is an identifier.
* `fieldNameFault_iff`, `schemaNameFault_iff`: what a field and a schema may be called, without the
  order of the checks.
* `dot_not_mem`: the name of a field has no dot.
* `capitalize_head`, `capitalize_continues`: the capitalised name of a field behind another name.
* `schemaName_head`: the name of a schema starts with no lower-case letter and no underscore.
-/
namespace EntityModel.Name

/-! ## Identifiers -/

theorem identFault_eq_none_iff {ident : String} {first : Char} {rest : List Char}
    (h : ident.toList = first :: rest) : identFault? ident = none ↔
      startsIdent first = true ∧ rest.all continuesIdent = true ∧
        ¬ (first = '_' ∧ rest.head? = some '_') := by
  unfold identFault?
  rw [h]
  cases hs : startsIdent first <;> cases hr : rest.all continuesIdent <;> simp [hs, hr]

theorem continuesIdent_of_startsIdent {c : Char} (h : startsIdent c = true) :
    continuesIdent c = true := by
  simp only [startsIdent, Bool.or_eq_true] at h
  simp only [continuesIdent, Char.isAlphanum, Bool.or_eq_true]
  exact h.imp_right .inl

/-- An identifier may stand behind another. -/
theorem continues_of_ident {ident : String} (h : identFault? ident = none) :
    ident.toList.all continuesIdent = true := by
  cases hl : ident.toList with
  | nil => rfl
  | cons first rest =>
    obtain ⟨hs, hr, -⟩ := (identFault_eq_none_iff hl).1 h
    simp only [List.all_cons, hr, Bool.and_true]
    exact continuesIdent_of_startsIdent hs

/-- With something behind it, a text that does not start with an underscore is an identifier
exactly when it is one by itself and the characters behind it may stand in an identifier. -/
theorem identFault_append_iff {front back : String}
    (h : ∃ first rest, front.toList = first :: rest ∧ first ≠ '_') :
    identFault? (front ++ back) = none ↔
      identFault? front = none ∧ back.toList.all continuesIdent = true := by
  obtain ⟨first, rest, hfront, hu⟩ := h
  have hall : (front ++ back).toList = first :: (rest ++ back.toList) := by
    rw [String.toList_append, hfront, List.cons_append]
  rw [identFault_eq_none_iff hall, identFault_eq_none_iff hfront, List.all_append]
  simp [hu, and_assoc]

/-! ## Names of fields -/

/-- A GraphQL name: a letter or an underscore, then letters, digits and underscores. -/
def IsGraphQLName (name : String) : Prop :=
  ∃ first rest, name.toList = first :: rest ∧ (first = '_' ∨ first.isAlpha = true) ∧
    ∀ c ∈ rest, c = '_' ∨ c.isAlphanum = true

/-- What a field may be called. -/
structure IsFieldName (name : String) : Prop where
  graphQL : IsGraphQLName name
  notIntrospection : ¬ ['_', '_'] <+: name.toList
  short : name.utf8ByteSize ≤ maxLength

theorem identFault_iff (ident : String) :
    identFault? ident = none ↔ IsGraphQLName ident ∧ ¬ ['_', '_'] <+: ident.toList := by
  cases hl : ident.toList with
  | nil => simp [identFault?, IsGraphQLName, hl]
  | cons first rest =>
    have hpair : ['_', '_'] <+: first :: rest ↔ first = '_' ∧ rest.head? = some '_' := by
      cases rest <;> simp [List.cons_prefix_cons, eq_comm]
    rw [identFault_eq_none_iff hl, hpair]
    simp [IsGraphQLName, hl, startsIdent, continuesIdent, and_assoc]

/-- A name is a field's exactly when the check finds no fault. -/
theorem fieldNameFault_iff (name : String) : fieldNameFault? name = none ↔ IsFieldName name := by
  rw [fieldNameFault_eq_none, identFault_iff]
  exact ⟨fun ⟨⟨hg, hn⟩, hs⟩ => ⟨hg, hn, hs⟩, fun ⟨hg, hn, hs⟩ => ⟨⟨hg, hn⟩, hs⟩⟩

/-- Fields are called by names without dots, so that dotted paths can be cut again. -/
theorem dot_not_mem {name : String} (h : fieldNameFault? name = none) : '.' ∉ name.toList := by
  intro hdot
  have hall := continues_of_ident ((fieldNameFault_eq_none name).1 h).1
  exact absurd (List.all_eq_true.1 hall '.' hdot) (by decide)

theorem startsIdent_ascii {c : Char} (h : startsIdent c = true) : c.toNat < 128 := by
  simp only [startsIdent, Text.isAlpha_eq, Text.isUpper_eq, Text.isLower_eq, Bool.or_eq_true,
    beq_iff_eq, Bool.and_eq_true, decide_eq_true_eq, UInt32.le_iff_toNat_le, ge_iff_le] at h
  rcases h with rfl | h
  · decide
  · have : c.toNat = c.val.toNat := rfl
    have : 'Z'.val.toNat = 90 := rfl
    have : 'z'.val.toNat = 122 := rfl
    omega

/-- A field's name, capitalised, has its first letter upper-cased and keeps the rest. -/
theorem capitalize_eq {name : String} (h : fieldNameFault? name = none) :
    ∃ first rest, name.toList = first :: rest ∧
      (Text.capitalize name).toList = first.toUpper :: rest := by
  have hident := ((fieldNameFault_eq_none name).1 h).1
  cases hname : name.toList with
  | nil => simp [identFault?, hname] at hident
  | cons first rest =>
    have hstart := ((identFault_eq_none_iff hname).1 hident).1
    refine ⟨first, rest, rfl, ?_⟩
    simp [Text.capitalize, hname, Text.upperChar_ascii (startsIdent_ascii hstart)]

/-- The capitalised name of a field does not start with a lower-case letter. -/
theorem capitalize_head {name : String} (h : fieldNameFault? name = none) :
    ∃ c rest, (Text.capitalize name).toList = c :: rest ∧ c.isLower = false := by
  obtain ⟨first, rest, -, hcap⟩ := capitalize_eq h
  exact ⟨first.toUpper, rest, hcap, Text.isLower_toUpper first⟩

/-- The capitalised name of a field may stand behind an identifier. -/
theorem capitalize_continues {name : String} (h : fieldNameFault? name = none) :
    (Text.capitalize name).toList.all continuesIdent = true := by
  obtain ⟨first, rest, hname, hcap⟩ := capitalize_eq h
  have hall := continues_of_ident ((fieldNameFault_eq_none name).1 h).1
  rw [hname, List.all_cons, Bool.and_eq_true] at hall
  rw [hcap, List.all_cons, hall.2, Bool.and_true]
  rcases Text.toUpper_eq_or first with hsame | hupper
  · rw [hsame]; exact hall.1
  · simp [continuesIdent, Char.isAlphanum, Text.isAlpha_eq, hupper]

/-! ## Names of schemas -/

theorem isUpper_of_isSeparator {c : Char} (h : isSeparator c = true) : c.isUpper = false := by
  simp only [isSeparator, Bool.or_eq_true, beq_iff_eq] at h
  rcases h with (rfl | rfl) | rfl <;> rfl

/-- Pascal case starts with no lower-case letter and no separator. -/
theorem pascalFrom_head {cs rest : List Char} {first : Char}
    (h : pascalFrom true cs = first :: rest) :
    first.isLower = false ∧ isSeparator first = false := by
  induction cs with
  | nil => cases h
  | cons c cs ih =>
    rw [pascalFrom] at h
    split at h
    · exact ih h
    · next hsep =>
      rw [if_pos rfl] at h
      obtain ⟨rfl, -⟩ := List.cons.inj h
      refine ⟨Text.isLower_toUpper c, ?_⟩
      rcases Text.toUpper_eq_or c with hsame | hupper
      · simpa [hsame] using hsep
      · cases hs : isSeparator c.toUpper with
        | false => rfl
        | true => simp [isUpper_of_isSeparator hs] at hupper

/-- What a schema may be called. -/
structure IsSchemaName (name : String) : Prop where
  nonempty : name ≠ ""
  short : name.utf8ByteSize ≤ maxLength
  ascii : ∀ c ∈ name.toList, c.toNat < 128
  pascal : pascal name = name
  notReserved : name ∉ reserved

/-- A name is a schema's exactly when the check finds no fault. -/
theorem schemaNameFault_iff (name : String) :
    schemaNameFault? name = none ↔ IsSchemaName name := by
  have hparts : schemaNameFault? name = none ↔ name ≠ "" ∧ name.utf8ByteSize ≤ maxLength ∧
      (∀ c ∈ name.toList, c.toNat < 128) ∧ Name.pascal name = name ∧ name ∉ reserved := by
    unfold schemaNameFault?
    grind
  rw [hparts]
  exact ⟨fun ⟨hn, hs, ha, hp, hr⟩ => ⟨hn, hs, ha, hp, hr⟩,
    fun ⟨hn, hs, ha, hp, hr⟩ => ⟨hn, hs, ha, hp, hr⟩⟩

/-- The name of a schema starts with no lower-case letter and no underscore. -/
theorem schemaName_head {name : String} (h : schemaNameFault? name = none) :
    ∃ first rest, name.toList = first :: rest ∧ first.isLower = false ∧ first ≠ '_' := by
  obtain ⟨hne, -, -, hpascal, -⟩ := (schemaNameFault_iff name).1 h
  have hchars : pascalFrom true name.toList = name.toList := by
    simpa [pascal] using congrArg String.toList hpascal
  cases hname : name.toList with
  | nil => exact absurd (String.toList_eq_nil_iff.1 hname) hne
  | cons first rest =>
    rw [hname] at hchars
    obtain ⟨hlower, hsep⟩ := pascalFrom_head hchars
    refine ⟨first, rest, rfl, hlower, ?_⟩
    rintro rfl
    simp [isSeparator] at hsep

end EntityModel.Name
