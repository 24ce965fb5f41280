import Mathlib.Data.List.Nodup
import EntityModel.Decode
import EntityModel.Proofs.Keyed

/-!
# JSON forms are read back

A record is written as an object, in which what is not there is left out, and is read field by field.
Fields are written under different names, so each is found as it was written, and one that was left out
is read as what is not there. A plan that is left out, an empty one and one with joins are written in
three ways, and this at every join of a tree.

Results:
* `field?_ofList`, `optionalField?_ofList`, `fieldOr?_ofList`: a field is read as it was written.
* `Page.ofJson?_toJson`, `Page.toJson_injective`: so is a page, and different pages have different forms.
* `forms_decode`: joins, pages, requests and configurations are read back from their forms.
-/
namespace EntityModel

/-! ## Fields -/

namespace Json

variable {α : Type} {entries : List (String × Json)} {name : String}

theorem fields?_object (names : List String) (entries : List (String × Json)) :
    (object entries).fields? names = some (Keyed.ofList entries) := rfl

/-- A record without foreign fields is read as it was written. -/
theorem onlyFields?_object {names : List String} (h : ∀ name ∈ Keyed.keys entries, name ∈ names) :
    (object entries).onlyFields? names = some (Keyed.ofList entries) := by
  have hall : ((Keyed.ofList entries).all fun field => names.contains field.1) = true := by
    rw [List.all_eq_true]
    intro field hf
    rw [List.contains_iff_mem]
    exact h field.1 (Keyed.mem_keys_ofList.1 (List.mem_map_of_mem hf))
  rw [onlyFields?, fields?_object, Option.bind_eq_bind, Option.bind_some, if_pos hall]

theorem field?_ofList (read : Json → Option α) {value : Json}
    (distinct : (Keyed.keys entries).Nodup) (h : (name, value) ∈ entries) :
    field? read name (Keyed.ofList entries) = read value := by
  rw [field?, Keyed.get?_ofList_of_mem distinct h, Option.bind_some]

theorem fieldOr?_ofList (read : Json → Option α) (fallback : α) {value : Json}
    (distinct : (Keyed.keys entries).Nodup) (h : (name, value) ∈ entries) :
    fieldOr? read fallback name (Keyed.ofList entries) = read value := by
  rw [fieldOr?, Keyed.get?_ofList_of_mem distinct h]

theorem optionalField?_of_get? (read : Json → Option α) {fields : Members} {value : Json}
    (hget : Keyed.get? name fields = some value) (hne : value ≠ null) :
    optionalField? read name fields = (read value).map some := by
  rw [optionalField?, hget]
  cases value with
  | null => exact absurd rfl hne
  | _ => rfl

/-- A field that may be left out keeps the names of a record apart. -/
theorem nodup_keys_optional (write : α → Json) (distinct : (Keyed.keys entries).Nodup)
    (hname : name ∉ Keyed.keys entries) (value : Option α) : (Keyed.keys
      (entries ++ (value.map fun found => (name, write found)).toList)).Nodup := by
  cases value with
  | none => simpa using distinct
  | some found =>
    simp only [Keyed.keys, Option.map_some, Option.toList_some, List.map_append, List.map_cons,
      List.map_nil]
    rw [List.nodup_append]
    refine ⟨distinct, List.nodup_singleton _, ?_⟩
    rintro _ hother _ hlast rfl
    exact hname (List.mem_singleton.1 hlast ▸ hother)

/-- A field that is left out when there is no value is read as it was written. -/
theorem optionalField?_ofList {read : Json → Option α} {write : α → Json} (hnull : read null = none)
    (hread : ∀ value, read (write value) = some value) (distinct : (Keyed.keys entries).Nodup)
    (hname : name ∉ Keyed.keys entries) (value : Option α) : optionalField? read name
      (Keyed.ofList (entries ++ (value.map fun found => (name, write found)).toList)) = some value := by
  have hkeys := nodup_keys_optional write distinct hname value
  cases value with
  | none =>
    rw [Option.map_none, Option.toList_none, List.append_nil, optionalField?, Keyed.get?_ofList_of_not_mem hname]
  | some found =>
    have hne : write found ≠ null := by
      intro h
      have hwrite := hread found
      rw [h, hnull] at hwrite
      cases hwrite
    have hget := Keyed.get?_ofList_of_mem hkeys (List.mem_append_right entries (List.mem_singleton.2 rfl))
    rw [optionalField?_of_get? read hget hne, hread, Option.map_some]

end Json

/-! ## Joins -/

namespace Join

/-- The plan of a join is what stands under its name. -/
theorem planMember_eq (members : Members) : planMember members =
    match Keyed.get? "populate" members with
    | none => some none
    | some value => planOf value := by
  induction members with
  | nil => rfl
  | cons entry rest ih =>
    obtain ⟨name, value⟩ := entry
    by_cases h : name = "populate"
    · simp [planMember, Keyed.get?, h]
    · simp [planMember, Keyed.get?, h, ih]

/-- A join is read by its path and its plan. -/
theorem ofJson?_object {entries : List (String × Json)} (distinct : (Keyed.keys entries).Nodup)
    {path : String} (h : ("path", .str path) ∈ entries) : ofJson? (.object entries) =
      (planMember (Keyed.ofList entries)).map fun nested => ⟨path, nested⟩ := by
  rw [Json.object, ofJson?, Keyed.get?_ofList_of_mem distinct h]
  cases planMember (Keyed.ofList entries) <;> rfl

mutual

theorem ofJson?_toJson : (join : Join) → ofJson? join.toJson = some join
  | ⟨path, none⟩ => by
    have distinct : (Keyed.keys [("path", Json.str path)]).Nodup := by simp [Keyed.keys]
    have hplan : planMember (Keyed.ofList [("path", .str path)]) = some none := by
      rw [planMember_eq, Keyed.get?_ofList_of_not_mem (by simp [Keyed.keys])]
    rw [toJson, ofJson?_object distinct (List.mem_cons_self ..), hplan]
    rfl
  | ⟨path, some joins⟩ => by
    have distinct : (Keyed.keys [("path", Json.str path), ("populate", .arr (formsOf joins))]).Nodup := by
      simp [Keyed.keys]
    have hplan : planMember (Keyed.ofList [("path", .str path), ("populate", .arr (formsOf joins))])
        = some (some joins) := by
      rw [planMember_eq, Keyed.get?_ofList_of_mem distinct (List.mem_cons_of_mem _ (List.mem_cons_self ..))]
      simp only [planOf]
      rw [joinsOf?_formsOf joins]
      rfl
    rw [toJson, ofJson?_object distinct (List.mem_cons_self ..), hplan]
    rfl

theorem joinsOf?_formsOf : (joins : List Join) → joinsOf? (formsOf joins) = some joins
  | [] => rfl
  | join :: rest => by
    rw [formsOf, joinsOf?, ofJson?_toJson join, joinsOf?_formsOf rest]
    rfl

end

end Join

/-! ## Records -/

/-- A page is read back from its form, whether or not it tells the total. -/
theorem Page.ofJson?_toJson (page : Page) : ofJson? page.toJson = some page := by
  let front : List (String × Json) := [("data", .arr page.data), ("count", .int page.count.toNat)]
  let entries := front ++ (page.totalCount.map fun total => ("totalCount", .int total.toNat)).toList
  have hfront : (Keyed.keys front).Nodup := by simp [Keyed.keys, front]
  have htail : "totalCount" ∉ Keyed.keys front := by simp [Keyed.keys, front]
  have distinct : (Keyed.keys entries).Nodup :=
    Json.nodup_keys_optional _ hfront htail page.totalCount
  have hdata : Json.field? Json.items? "data" (Keyed.ofList entries) = some page.data :=
    Json.field?_ofList _ distinct (List.mem_cons_self ..)
  have hcount : Json.field? Json.count? "count" (Keyed.ofList entries) = some page.count :=
    (Json.field?_ofList _ distinct (List.mem_cons_of_mem _ (List.mem_cons_self ..))).trans
      (Json.count?_int page.count)
  have htotal : Json.optionalField? Json.count? "totalCount" (Keyed.ofList entries)
      = some page.totalCount :=
    Json.optionalField?_ofList rfl Json.count?_int hfront htail page.totalCount
  have hfields : page.toJson.fields? ["data", "count", "totalCount"] = some (Keyed.ofList entries) := rfl
  rw [ofJson?, hfields, Option.bind_eq_bind, Option.bind_some, hdata, hcount, htotal]
  rfl

/-- Different pages have different forms. -/
theorem Page.toJson_injective {page other : Page} (h : page.toJson = other.toJson) : page = other := by
  rw [← Option.some.injEq, ← page.ofJson?_toJson, h, other.ofJson?_toJson]

theorem Request.ofJson?_toJson (request : Request) : ofJson? request.toJson = some request := by
  let entries : List (String × Json) := [("query", .str request.query), ("variables", request.bindings)]
  have distinct : (Keyed.keys entries).Nodup := by simp [Keyed.keys, entries]
  have hquery : Json.field? Json.text? "query" (Keyed.ofList entries) = some request.query :=
    Json.field?_ofList _ distinct (List.mem_cons_self ..)
  have hvariables : Json.field? some "variables" (Keyed.ofList entries) = some request.bindings :=
    Json.field?_ofList _ distinct (List.mem_cons_of_mem _ (List.mem_cons_self ..))
  have hfields : request.toJson.fields? ["query", "variables"] = some (Keyed.ofList entries) := rfl
  rw [ofJson?, hfields, Option.bind_eq_bind, Option.bind_some, hquery, hvariables]
  rfl

/-- The form of a layout. -/
def Sdl.Layout.entries (layout : Sdl.Layout) : List (String × Json) :=
  [("query_type", .str layout.queryType), ("mutation_type", .str layout.mutationType),
    ("indent", .str layout.indent), ("descriptions", .bool layout.descriptions)]

theorem Sdl.Layout.ofJson?_object (layout : Sdl.Layout) :
    ofJson? (.object layout.entries) = some layout := by
  have distinct : (Keyed.keys layout.entries).Nodup := by simp [Keyed.keys, entries]
  have hfields : (Json.object layout.entries).onlyFields?
      ["query_type", "mutation_type", "indent", "descriptions"] = some (Keyed.ofList layout.entries) :=
    Json.onlyFields?_object (by simp [Keyed.keys, entries])
  have hquery (fallback : String) := Json.fieldOr?_ofList Json.text? fallback distinct
    (show ("query_type", .str layout.queryType) ∈ layout.entries by simp [entries])
  have hmutation (fallback : String) := Json.fieldOr?_ofList Json.text? fallback distinct
    (show ("mutation_type", .str layout.mutationType) ∈ layout.entries by simp [entries])
  have hindent (fallback : String) := Json.fieldOr?_ofList Json.text? fallback distinct
    (show ("indent", .str layout.indent) ∈ layout.entries by simp [entries])
  have hdescriptions (fallback : Bool) := Json.fieldOr?_ofList Json.bool? fallback distinct
    (show ("descriptions", .bool layout.descriptions) ∈ layout.entries by simp [entries])
  rw [ofJson?, hfields, Option.bind_eq_bind, Option.bind_some]
  simp only [hquery, hmutation, hindent, hdescriptions]
  rfl

theorem Config.ofJson?_toJson (config : Config) : ofJson? config.toJson = some config := by
  let entries : List (String × Json) := [("sdl", .object config.sdl.entries)]
  have distinct : (Keyed.keys entries).Nodup := by simp [Keyed.keys, entries]
  have hfields : config.toJson.onlyFields? ["sdl"] = some (Keyed.ofList entries) :=
    Json.onlyFields?_object (by simp [Keyed.keys])
  have hsdl : Json.fieldOr? Sdl.Layout.ofJson? {} "sdl" (Keyed.ofList entries) = some config.sdl :=
    (Json.fieldOr?_ofList _ _ distinct (List.mem_cons_self ..)).trans config.sdl.ofJson?_object
  rw [ofJson?, hfields, Option.bind_eq_bind, Option.bind_some, hsdl]
  rfl

/-- **Forms.** Whatever is written is read back: a join with all the joins below it, where a plan may be
left out, empty or not; a page of any documents, with the total or without; a request with any bindings; and
a configuration. -/
theorem forms_decode : (∀ join : Join, Join.ofJson? join.toJson = some join) ∧
    (∀ page : Page, Page.ofJson? page.toJson = some page) ∧
    (∀ request : Request, Request.ofJson? request.toJson = some request) ∧
    ∀ config : Config, Config.ofJson? config.toJson = some config :=
  ⟨Join.ofJson?_toJson, Page.ofJson?_toJson, Request.ofJson?_toJson, Config.ofJson?_toJson⟩

end EntityModel
