import CallData.Arguments
import CallData.Proofs.Traversal

/-!
# Arrays of typed arguments

Which arrays are taken for typed arguments, which are refused, and which are taken as they stand.
The items decide together: only when each of them is an object that names a type is the array read
as typed arguments, and each item then has to have one type, which is a text, and one value, which
may be anything. Other members of an item do not count.

## Main definitions

* `Json.Source.Sole`, `Json.Source.Repeated` — one entry under some names, and two of them
* `Json.NamesType`, `Json.IsArgument` — objects that name a type, and the arguments that objects
  are
* `Json.Misfit` — what keeps an object that names a type from being an argument

## Main results

* `TypedArgument.read?_eq_some_iff` — the arguments that are read in objects
* `Json.isArgument_or_misfit` — an object that names a type is an argument or has a flaw
* `Arguments.ofJson_outcome` — what becomes of a JSON value
-/

namespace CallData

open Traversal

/-- An entry under one of some names, with no other entry under any of them. -/
def Json.Source.Sole {σ : Type} (entries : List (String × σ)) (names : List String) (value : σ) :
    Prop :=
  ∃ before after name, entries = before ++ (name, value) :: after ∧ name ∈ names ∧
    ∀ other ∈ before ++ after, other.1 ∉ names

/-- Two entries under some names, at different places. -/
def Json.Source.Repeated {σ : Type} (entries : List (String × σ)) (names : List String) : Prop :=
  ∃ before between after first second, entries = before ++ first :: (between ++ second :: after) ∧
    first.1 ∈ names ∧ second.1 ∈ names

/-- The names under which an argument says its type. -/
def TypedArgument.typeNames : List String := ["type", "t"]

/-- The names under which an argument holds its value. -/
def TypedArgument.valueNames : List String := ["value", "v"]

/-- An object that names a type, whatever stands under the name. -/
inductive Json.NamesType : Json → Prop
  | object {members : List (String × Json)} {member : String × Json} (mem : member ∈ members)
      (named : member.1 ∈ TypedArgument.typeNames) : NamesType (.object members)

/-- The argument that an object is: it has one member for the type, which is a text, and one for
the value. -/
inductive Json.IsArgument : Json → TypedArgument → Prop
  | object {members : List (String × Json)} {type : String} {value : Json}
      (soleType : Source.Sole members TypedArgument.typeNames (.string type))
      (soleValue : Source.Sole members TypedArgument.valueNames value) :
      IsArgument (.object members) ⟨type, value⟩

/-- What keeps an object that names a type from being an argument. -/
inductive Json.Misfit : Json → Prop
  | twoTypes {members : List (String × Json)}
      (both : Source.Repeated members TypedArgument.typeNames) : Misfit (.object members)
  | twoValues {members : List (String × Json)}
      (both : Source.Repeated members TypedArgument.valueNames) : Misfit (.object members)
  | typeNoText {members : List (String × Json)} {member : String × Json} (mem : member ∈ members)
      (named : member.1 ∈ TypedArgument.typeNames) (noText : ∀ text, member.2 ≠ .string text) :
      Misfit (.object members)
  | noValue {members : List (String × Json)}
      (missing : ∀ member ∈ members, member.1 ∉ TypedArgument.valueNames) :
      Misfit (.object members)

/-! ### Entries under some names -/

namespace Json.Source

variable {σ : Type} {entries : List (String × σ)} {names : List String} {value : σ}

/-- The entries of a field are those that stand under its names. -/
def under (names : List String) (entries : List (String × σ)) : List (String × σ) :=
  entries.filter fun entry => names.contains entry.1

theorem under_eq_nil_iff : under names entries = [] ↔ ∀ entry ∈ entries, entry.1 ∉ names := by
  simp only [under, List.filter_eq_nil_iff, List.contains_iff_mem]

theorem under_eq_cons_iff {entry : String × σ} {rest : List (String × σ)} :
    under names entries = entry :: rest ↔ ∃ before after, entries = before ++ entry :: after ∧
      (∀ other ∈ before, other.1 ∉ names) ∧ entry.1 ∈ names ∧ under names after = rest := by
  simp only [under, List.filter_eq_cons_iff, List.contains_iff_mem]

theorem exists_under_eq_singleton_iff :
    (∃ name, under names entries = [(name, value)]) ↔ Sole entries names value := by
  simp only [under_eq_cons_iff, under_eq_nil_iff, Sole, List.mem_append]
  constructor
  · rintro ⟨name, before, after, hentries, hbefore, hname, hafter⟩
    exact ⟨before, after, name, hentries, hname, fun other hmem =>
      hmem.elim (hbefore other) (hafter other)⟩
  · rintro ⟨before, after, name, hentries, hname, hothers⟩
    exact ⟨name, before, after, hentries, fun other hmem => hothers other (Or.inl hmem), hname,
      fun other hmem => hothers other (Or.inr hmem)⟩

theorem exists_under_eq_cons_cons_iff :
    (∃ first second rest, under names entries = first :: second :: rest) ↔
      Repeated entries names := by
  constructor
  · rintro ⟨first, second, rest, h⟩
    obtain ⟨before, later, rfl, -, hfirst, hlater⟩ := under_eq_cons_iff.mp h
    obtain ⟨between, after, rfl, -, hsecond, -⟩ := under_eq_cons_iff.mp hlater
    exact ⟨before, between, after, first, second, rfl, hfirst, hsecond⟩
  · rintro ⟨before, between, after, first, second, hentries, hfirst, hsecond⟩
    -- there may be more of them, but two are left at least
    have hlength : 2 ≤ (under names entries).length := by
      rw [hentries]
      simp [under, hfirst, hsecond]
      omega
    match under names entries, hlength with
    | first :: second :: rest, _ => exact ⟨first, second, rest, rfl⟩

theorem field?_eq_some_some_iff :
    field? entries names = some (some value) ↔ Sole entries names value := by
  rw [← exists_under_eq_singleton_iff, field?, ← under]
  rcases under names entries with _ | ⟨⟨name, first⟩, _ | ⟨second, rest⟩⟩ <;> simp

theorem field?_eq_some_none_iff :
    field? entries names = some none ↔ ∀ entry ∈ entries, entry.1 ∉ names := by
  rw [← under_eq_nil_iff, field?, ← under]
  rcases under names entries with _ | ⟨first, _ | ⟨second, rest⟩⟩ <;> simp

/-- There is no field when two entries stand under its names. -/
theorem field?_eq_none_iff : field? entries names = none ↔ Repeated entries names := by
  rw [← exists_under_eq_cons_cons_iff, field?, ← under]
  rcases under names entries with _ | ⟨first, _ | ⟨second, rest⟩⟩ <;> simp

theorem Sole.mem (h : Sole entries names value) : ∃ name ∈ names, (name, value) ∈ entries := by
  obtain ⟨before, after, name, rfl, hname, -⟩ := h
  exact ⟨name, hname, by simp⟩

/-- An entry under the names is the only one. -/
theorem Sole.eq_of_mem (h : Sole entries names value) {entry : String × σ} (hmem : entry ∈ entries)
    (hentry : entry.1 ∈ names) : entry.2 = value := by
  obtain ⟨before, after, name, rfl, -, hothers⟩ := h
  by_cases hother : entry ∈ before ++ after
  · exact absurd hentry (hothers entry hother)
  · simp only [List.mem_append, List.mem_cons] at hmem hother
    obtain hbefore | hsame | hafter := hmem
    · exact absurd (Or.inl hbefore) hother
    · rw [hsame]
    · exact absurd (Or.inr hafter) hother

end Json.Source

/-! ### Single items -/

theorem Json.text?_eq_some_iff {json : Json} {text : String} :
    Source.text? json = some text ↔ json = .string text := by
  cases json <;> simp [Source.text?]

theorem Arguments.namesType_eq_true_iff {json : Json} :
    namesType json = true ↔ json.NamesType := by
  cases json with
  | object members =>
    simp only [namesType, List.any_eq_true, Bool.or_eq_true, beq_iff_eq]
    constructor
    · rintro ⟨member, hmem, hname⟩
      exact .object hmem (by simpa [TypedArgument.typeNames, or_comm] using hname)
    · rintro ⟨hmem, hnamed⟩
      exact ⟨_, hmem, by simpa [TypedArgument.typeNames, or_comm] using hnamed⟩
  | _ => exact ⟨fun h => absurd h (by simp [namesType]), fun h => nomatch h⟩

namespace TypedArgument

variable {members : List (String × Json)} {argument : TypedArgument} {json : Json}

/-- What is read in an object is under the names of the two fields. -/
theorem read?_object_eq_some_iff {room : Nat} :
    read? room (Json.object members) = some argument ↔
      Json.Source.field? members typeNames = some (some (.string argument.type)) ∧
        Json.Source.field? members valueNames = some (some argument.value) := by
  have hfields : Json.Source.fields? [typeNames, valueNames] (Json.object members) =
      [typeNames, valueNames].mapM (Json.Source.field? members) := rfl
  rw [read?, ← typeNames, ← valueNames, hfields, List.mapM_cons, List.mapM_cons, List.mapM_nil]
  cases Json.Source.field? members typeNames with
  | none => simp
  | some type =>
    cases Json.Source.field? members valueNames with
    | none => simp
    | some value =>
      -- a value is taken as it is, whatever room there is for it
      have hvalue : ∀ json : Json, Json.Source.value? room json = some json := fun _ => rfl
      obtain ⟨text, held⟩ := argument
      simp [hvalue, Json.Source.required, Option.bind_eq_some_iff, Json.text?_eq_some_iff]

/-- What is read in an object is the argument that it is. -/
theorem read?_eq_some_iff (h : json.NamesType) {room : Nat} :
    read? room json = some argument ↔ json.IsArgument argument := by
  obtain ⟨hmem, hnamed⟩ := h
  rw [read?_object_eq_some_iff, Json.Source.field?_eq_some_some_iff,
    Json.Source.field?_eq_some_some_iff]
  constructor
  · rintro ⟨htype, hvalue⟩
    exact .object htype hvalue
  · rintro ⟨htype, hvalue⟩
    exact ⟨htype, hvalue⟩

end TypedArgument

namespace Json

variable {json : Json} {argument : TypedArgument}

theorem IsArgument.namesType (h : json.IsArgument argument) : json.NamesType := by
  obtain ⟨htype, -⟩ := h
  obtain ⟨name, hname, hmem⟩ := htype.mem
  exact .object hmem hname

/-- An object with a flaw is no argument. -/
theorem Misfit.not_isArgument (h : json.Misfit) : ¬ json.IsArgument argument := by
  rintro ⟨htype, hvalue⟩
  cases h with
  | twoTypes both =>
    rw [← Source.field?_eq_none_iff, Source.field?_eq_some_some_iff.mpr htype] at both
    exact absurd both (by simp)
  | twoValues both =>
    rw [← Source.field?_eq_none_iff, Source.field?_eq_some_some_iff.mpr hvalue] at both
    exact absurd both (by simp)
  | typeNoText mem named noText => exact noText _ (htype.eq_of_mem mem named)
  | noValue missing =>
    obtain ⟨name, hname, hmem⟩ := hvalue.mem
    exact missing _ hmem hname

/-- An object that names a type is an argument, or it has a flaw. -/
theorem isArgument_or_misfit (h : json.NamesType) :
    (∃ argument, json.IsArgument argument) ∨ json.Misfit := by
  obtain ⟨hmem, hnamed⟩ := h
  rename_i members member
  cases htype : Source.field? members TypedArgument.typeNames with
  | none => exact Or.inr (.twoTypes (Source.field?_eq_none_iff.mp htype))
  | some type =>
    cases hvalue : Source.field? members TypedArgument.valueNames with
    | none => exact Or.inr (.twoValues (Source.field?_eq_none_iff.mp hvalue))
    | some value =>
      cases type with
      | none => exact absurd hnamed (Source.field?_eq_some_none_iff.mp htype member hmem)
      | some type =>
        cases value with
        | none => exact Or.inr (.noValue (Source.field?_eq_some_none_iff.mp hvalue))
        | some value =>
          rw [Source.field?_eq_some_some_iff] at htype hvalue
          by_cases htext : ∃ text, type = .string text
          · obtain ⟨text, rfl⟩ := htext
            exact Or.inl ⟨⟨text, value⟩, .object htype hvalue⟩
          · obtain ⟨name, hname, hmem⟩ := htype.mem
            exact Or.inr (.typeNoText hmem hname fun text hsame => htext ⟨text, hsame⟩)

end Json

theorem TypedArgument.read?_eq_none_iff {json : Json} (h : json.NamesType) {room : Nat} :
    read? room json = none ↔ json.Misfit := by
  rw [Option.eq_none_iff_forall_ne_some]
  simp only [ne_eq, read?_eq_some_iff h]
  constructor
  · intro hnone
    rcases Json.isArgument_or_misfit h with ⟨argument, hargument⟩ | hmisfit
    · exact absurd hargument (hnone argument)
    · exact hmisfit
  · intro hmisfit argument
    exact hmisfit.not_isArgument

/-! ### Arrays -/

namespace Arguments

variable {items : List Json} {arguments : List TypedArgument}

theorem namesTypes_eq_true_iff :
    namesTypes items = true ↔ items ≠ [] ∧ ∀ item ∈ items, item.NamesType := by
  simp only [namesTypes, Bool.and_eq_true, Bool.not_eq_true', List.isEmpty_eq_false_iff,
    List.all_eq_true, namesType_eq_true_iff]

theorem namesTypes_eq_false_iff :
    namesTypes items = false ↔ items = [] ∨ ∃ item ∈ items, ¬ item.NamesType := by
  rw [Bool.eq_false_iff, ne_eq, namesTypes_eq_true_iff]
  by_cases hempty : items = [] <;> simp [hempty]

theorem mapM_read?_eq_some_iff (h : ∀ item ∈ items, item.NamesType) {room : Nat} :
    items.mapM (TypedArgument.read? room) = some arguments ↔
      List.Forall₂ Json.IsArgument items arguments := by
  rw [mapM_eq_some_iff_forall₂]
  constructor
  · intro hread
    exact ((List.forall₂_and_left _ _).mpr ⟨h, hread⟩).imp fun item argument hitem =>
      (TypedArgument.read?_eq_some_iff hitem.1).mp hitem.2
  · intro harguments
    exact harguments.imp fun item argument hargument =>
      (TypedArgument.read?_eq_some_iff hargument.namesType).mpr hargument

theorem mapM_read?_eq_none_iff (h : ∀ item ∈ items, item.NamesType) {room : Nat} :
    items.mapM (TypedArgument.read? room) = none ↔ ∃ item ∈ items, item.Misfit := by
  rw [mapM_eq_none_iff]
  apply exists_congr
  intro item
  apply and_congr_right
  intro hmem
  exact TypedArgument.read?_eq_none_iff (h item hmem)

theorem forall_namesType (h : List.Forall₂ Json.IsArgument items arguments) :
    ∀ item ∈ items, item.NamesType := by
  have hboth : List.Forall₂ (fun item argument => item.NamesType ∧ item.IsArgument argument) items
      arguments := h.imp fun _ _ hargument => ⟨hargument.namesType, hargument⟩
  exact ((List.forall₂_and_left _ _).mp hboth).1

/-- An array is taken for typed arguments when it has items and each of them is an argument. -/
theorem ofJson_array_eq_typed_iff :
    ofJson (.array items) = .ok (.typed arguments) ↔
      items ≠ [] ∧ List.Forall₂ Json.IsArgument items arguments := by
  cases hnames : namesTypes items with
  | false =>
    rw [ofJson_of_not_namesTypes hnames]
    rw [← Bool.not_eq_true, namesTypes_eq_true_iff] at hnames
    simp only [Except.ok.injEq, reduceCtorEq, false_iff]
    rintro ⟨hne, harguments⟩
    exact hnames ⟨hne, forall_namesType harguments⟩
  | true =>
    obtain ⟨hne, hall⟩ := namesTypes_eq_true_iff.mp hnames
    rw [← mapM_read?_eq_some_iff hall, ofJson, hnames, if_pos rfl]
    cases items.mapM (TypedArgument.read? 0) <;> simp [hne]

/-- An array is refused when it has items that all name a type and one of them has a flaw. -/
theorem ofJson_array_eq_error_iff {error : CodecError} :
    ofJson (.array items) = .error error ↔
      items ≠ [] ∧ (∀ item ∈ items, item.NamesType) ∧ (∃ item ∈ items, item.Misfit) ∧
        error = .unreadable := by
  cases hnames : namesTypes items with
  | false =>
    rw [ofJson_of_not_namesTypes hnames]
    rw [← Bool.not_eq_true, namesTypes_eq_true_iff] at hnames
    simp only [reduceCtorEq, false_iff]
    rintro ⟨hne, hall, _⟩
    exact hnames ⟨hne, hall⟩
  | true =>
    obtain ⟨hne, hall⟩ := namesTypes_eq_true_iff.mp hnames
    rw [← mapM_read?_eq_none_iff hall, ofJson, hnames, if_pos rfl]
    cases items.mapM (TypedArgument.read? 0) with
    | some arguments => simp
    | none =>
      constructor
      · intro h
        exact ⟨hne, hall, rfl, (Except.error.inj h).symm⟩
      · rintro ⟨-, -, -, rfl⟩
        rfl

/-- An array is taken as it stands when it has no items or one that names no type. -/
theorem ofJson_array_eq_positional_iff {values : List Json} :
    ofJson (.array items) = .ok (.positional values) ↔
      items = values ∧ (items = [] ∨ ∃ item ∈ items, ¬ item.NamesType) := by
  rw [← namesTypes_eq_false_iff]
  cases hnames : namesTypes items with
  | false => simp [ofJson_of_not_namesTypes hnames]
  | true =>
    rw [ofJson, hnames, if_pos rfl]
    cases items.mapM (TypedArgument.read? 0) <;> simp

/-- What becomes of a JSON value. It is taken for typed arguments exactly when it is an array with
items, each of which is an object with one type, which is a text, and one value; the arguments are
those of the items, in their order. It is refused when it is no array, and when its items all name
a type and one of them has two types or two values, a type that is no text, or no value. Any other
value is an array of plain items, which are taken as they stand. -/
theorem ofJson_outcome (json : Json) :
    (∀ arguments, ofJson json = .ok (.typed arguments) ↔
      ∃ items, json = .array items ∧ items ≠ [] ∧
        List.Forall₂ Json.IsArgument items arguments) ∧
    (∀ error, ofJson json = .error error ↔
      ((∀ items, json ≠ .array items) ∧
        error = .invalidAbi "call arguments must be a JSON array") ∨
      ∃ items, json = .array items ∧ items ≠ [] ∧ (∀ item ∈ items, item.NamesType) ∧
        (∃ item ∈ items, item.Misfit) ∧ error = .unreadable) ∧
    (∀ values, ofJson json = .ok (.positional values) ↔
      json = .array values ∧ (values = [] ∨ ∃ item ∈ values, ¬ item.NamesType)) ∧
    ∀ error, ofJson json = .error error → error.code = 9 := by
  cases json with
  | array items =>
    refine ⟨fun arguments => ?_, fun error => ?_, fun values => ?_, fun error h => ?_⟩
    · rw [ofJson_array_eq_typed_iff]
      simp only [Json.array.injEq, exists_eq_left']
    · rw [ofJson_array_eq_error_iff]
      simp
    · rw [ofJson_array_eq_positional_iff, Json.array.injEq]
      exact and_congr_right fun hsame => hsame ▸ Iff.rfl
    · rw [(ofJson_array_eq_error_iff.mp h).2.2.2]
      rfl
  | _ =>
    refine ⟨fun arguments => ?_, fun error => ?_, fun values => ?_, fun error h => ?_⟩
    · simp [ofJson]
    · simp [ofJson, eq_comm]
    · simp [ofJson]
    · cases h
      rfl

/-- Either name does, but not both of them. -/
example :
    ofJson (.array [.object [("t", .string "bool"), ("u", .null), ("value", .null)]]) =
      .ok (.typed [⟨"bool", .null⟩]) ∧
    ofJson (.array [.object [("t", .string "bool"), ("type", .string "bool"), ("v", .null)]]) =
      .error .unreadable :=
  ⟨rfl, rfl⟩

end Arguments

end CallData
