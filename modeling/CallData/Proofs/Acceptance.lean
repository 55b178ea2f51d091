import CallData.Interface.Basic
import CallData.Proofs.BlockTable
import CallData.Proofs.Spelling

/-!
# Which calls are accepted

A call of a method by its name is accepted when the name is known, there is a value for each
parameter, and every value is one that its type admits. A call that is not accepted fails with the
first thing that is wrong, in that order; among the values it is the first that is not admitted,
and within an array its first element that is not. Nothing that comes after has any influence.

## Main definitions

* `BaseType.Admits`, `ParamType.Admits` — the values that a type admits

## Main results

* `BaseType.admits_iff`, `ParamType.admits_iff` — the values that have a part
* `Interface.call_outcome` — what a call of a method by its name comes to
-/

namespace CallData

open Traversal

/-- The values that a base type admits. -/
inductive BaseType.Admits : BaseType → Value → Prop
  | uint {text : String} {number : Nat} (denotes : Text.Denotes text.toList number)
      (fits : number < 2 ^ 256) : Admits .uint (.uint text)
  | address {text : String} {digits : List Char} (marked : Text.MaybeMarked text.toList digits)
      (hex : Text.IsHex digits) (count : digits.length = 40) : Admits .address (.address text)
  | bool {text : String} (spelled : text ∈ ["0", "1", "true", "false"]) : Admits .bool (.bool text)
  | bytes {text : String} {digits : List Char} (marked : Text.MaybeMarked text.toList digits)
      (hex : Text.IsHex digits) : Admits .bytes (.bytes text)
  | string (text : String) : Admits .string (.string text)

/-- The values that a parameter type admits. -/
inductive ParamType.Admits : ParamType → Value → Prop
  | base {type : BaseType} {value : Value} (admits : type.Admits value) : Admits (.base type) value
  | array {element : BaseType} {items : List Value}
      (elements : ∀ item ∈ items, element.Admits item) :
      Admits (.array element) (.array items)

/-! ### Admitted values -/

theorem ValueText.exists_bool_iff {text : String} :
    (∃ truth, ValueText.bool text = .ok truth) ↔ text ∈ ["0", "1", "true", "false"] := by
  simp only [ValueText.bool_eq_ok_iff, Bool.exists_bool, Text.truthTexts, List.mem_cons,
    List.not_mem_nil, or_false]
  tauto

theorem ValueText.exists_bytes_iff {text : String} :
    (∃ payload, ValueText.bytes text = .ok payload) ↔
      ∃ digits, Text.MaybeMarked text.toList digits ∧ Text.IsHex digits := by
  simp only [ValueText.bytes_eq_ok_iff_spells]
  constructor
  · rintro ⟨payload, digits, hmarked, hspells | hspells⟩
    · exact ⟨digits, hmarked, hspells.isHex⟩
    · exact ⟨digits, hmarked, Text.isHex_zero_cons_iff.mp hspells.isHex⟩
  · rintro ⟨digits, hmarked, hhex⟩
    rcases Nat.mod_two_eq_zero_or_one digits.length with heven | hodd
    · obtain ⟨payload, hspells⟩ := Text.exists_spells_of_isHex hhex heven
      exact ⟨payload, digits, hmarked, Or.inl hspells⟩
    · -- a zero in front makes up the last pair
      have heven : ('0' :: digits).length % 2 = 0 := by
        rw [List.length_cons]
        omega
      obtain ⟨payload, hspells⟩ :=
        Text.exists_spells_of_isHex (Text.isHex_zero_cons_iff.mpr hhex) heven
      exact ⟨payload, digits, hmarked, Or.inr hspells⟩

theorem Address.exists_ofText_iff {text : String} :
    (∃ address, Address.ofText text = .ok address) ↔
      ∃ digits, Text.MaybeMarked text.toList digits ∧ Text.IsHex digits ∧ digits.length = 40 := by
  simp only [Address.ofText_eq_ok_iff]
  constructor
  · rintro ⟨address, digits, hmarked, hspells⟩
    exact ⟨digits, hmarked, exists_spells_iff.mp ⟨address, hspells⟩⟩
  · rintro ⟨digits, hmarked, hdigits⟩
    obtain ⟨address, hspells⟩ := exists_spells_iff.mpr hdigits
    exact ⟨address, digits, hmarked, hspells⟩

/-- A base type admits the values that have a part. -/
theorem BaseType.admits_iff {type : BaseType} {value : Value} :
    type.Admits value ↔ ∃ part, type.partOf value = .ok part := by
  constructor
  · rintro (⟨hdenotes, hfits⟩ | ⟨hmarked, hhex, hcount⟩ | hspelled | ⟨hmarked, hhex⟩ | text)
    · have hread := ValueText.uint_eq_ok_iff_denotes.mpr ⟨hdenotes, hfits⟩
      exact ⟨_, partOf_eq_ok_iff.mpr (.uint hread)⟩
    · obtain ⟨address, hread⟩ := Address.exists_ofText_iff.mpr ⟨_, hmarked, hhex, hcount⟩
      exact ⟨_, partOf_eq_ok_iff.mpr (.address hread)⟩
    · obtain ⟨truth, hread⟩ := ValueText.exists_bool_iff.mpr hspelled
      exact ⟨_, partOf_eq_ok_iff.mpr (.bool hread)⟩
    · obtain ⟨payload, hread⟩ := ValueText.exists_bytes_iff.mpr ⟨_, hmarked, hhex⟩
      exact ⟨_, partOf_eq_ok_iff.mpr (.bytes hread)⟩
    · exact ⟨_, partOf_eq_ok_iff.mpr (.string text)⟩
  · rintro ⟨part, h⟩
    cases partOf_eq_ok_iff.mp h with
    | uint read =>
      obtain ⟨hdenotes, hfits⟩ := ValueText.uint_eq_ok_iff_denotes.mp read
      exact .uint hdenotes hfits
    | address read =>
      obtain ⟨digits, hmarked, hhex, hcount⟩ := Address.exists_ofText_iff.mp ⟨_, read⟩
      exact .address hmarked hhex hcount
    | bool read => exact .bool (ValueText.exists_bool_iff.mp ⟨_, read⟩)
    | bytes read =>
      obtain ⟨digits, hmarked, hhex⟩ := ValueText.exists_bytes_iff.mp ⟨_, read⟩
      exact .bytes hmarked hhex
    | string text => exact .string text

/-- A parameter type admits the values that have a part. -/
theorem ParamType.admits_iff {type : ParamType} {value : Value} :
    type.Admits value ↔ ∃ part, type.partOf value = .ok part := by
  constructor
  · rintro (hbase | helements)
    · exact BaseType.admits_iff.mp hbase
    · obtain ⟨parts, hparts⟩ := exists_mapM_eq_ok_iff.mpr fun item hitem =>
        BaseType.admits_iff.mp (helements item hitem)
      exact ⟨_, partOf_eq_ok_iff.mpr (.array hparts)⟩
  · rintro ⟨part, h⟩
    cases partOf_eq_ok_iff.mp h with
    | base encoded => exact .base (BaseType.admits_iff.mpr ⟨part, encoded⟩)
    | array encoded =>
      have helements := exists_mapM_eq_ok_iff.mp ⟨_, encoded⟩
      exact .array fun item hitem => BaseType.admits_iff.mpr (helements item hitem)

/-! ### Blocks of values -/

namespace Block

theorem result_ofValues_singleton (type : ParamType) (value : Value) :
    (ofValues [type] [value]).result = (type.partOf value).map fun part => Part.table [part] := by
  rw [result_ofValues_of_length_eq rfl, List.zip_cons_cons]
  change _ = (argumentPart (type, value)).map fun part => Part.table [part]
  cases h : argumentPart (type, value) with
  | error error =>
    rw [mapM_cons_of_error h]
    rfl
  | ok part =>
    rw [mapM_cons_of_ok h]
    rfl

/-- Values are accepted for the types that admit them. -/
theorem exists_ofValues_iff {types : List ParamType} {values : List Value} :
    (∃ block, (ofValues types values).result = .ok block) ↔
      List.Forall₂ ParamType.Admits types values := by
  simp only [result_ofValues_eq_ok_iff, List.forall₂_iff_zip]
  constructor
  · rintro ⟨block, hcount, parts, hparts, -⟩
    have hall := exists_mapM_eq_ok_iff.mp ⟨parts, hparts⟩
    exact ⟨hcount, fun hmem => ParamType.admits_iff.mpr (hall _ hmem)⟩
  · rintro ⟨hcount, hall⟩
    obtain ⟨parts, hparts⟩ := exists_mapM_eq_ok_iff.mpr fun argument hmem =>
      ParamType.admits_iff.mp (hall hmem)
    exact ⟨Part.table parts, hcount, parts, hparts, rfl⟩

end Block

/-- An array that has no part fails with the error of its first element that is not admitted. -/
theorem ParamType.exists_firstFailure_of_array {element : BaseType} {items : List Value}
    {error : CodecError} (h : (ParamType.array element).partOf (.array items) = .error error) :
    ∃ position item, FirstFailure element.Admits items position item ∧
      (Block.ofValues [.base element] [item]).result = .error error := by
  rw [partOf_array, map_eq_error_iff, BaseType.arrayPayload, map_eq_error_iff] at h
  obtain ⟨position, item, hfirst, herror⟩ :=
    exists_firstFailure_of_mapM (fun _ => BaseType.admits_iff) h
  refine ⟨position, item, hfirst, ?_⟩
  rw [Block.result_ofValues_singleton, partOf_base, herror]
  rfl

/-- Values of the right number that are not all admitted fail with the error of the first that is
not, and an array with the error of its first element that is not. -/
theorem Block.exists_firstFailure_of_not_admitted {types : List ParamType} {values : List Value}
    (hcount : types.length = values.length) (hbad : ¬ List.Forall₂ ParamType.Admits types values) :
    ∃ index type value error,
      FirstFailure (fun argument => argument.1.Admits argument.2) (types.zip values) index
        (type, value) ∧
      (ofValues types values).result = .error error ∧
      (ofValues [type] [value]).result = .error error ∧
      ∀ element items, type = .array element → value = .array items →
        ∃ position item, FirstFailure element.Admits items position item ∧
          (ofValues [.base element] [item]).result = .error error := by
  cases hresult : (ofValues types values).result with
  | ok block => exact absurd (exists_ofValues_iff.mp ⟨block, hresult⟩) hbad
  | error error =>
    have hparts := hresult
    rw [result_ofValues_of_length_eq hcount, map_eq_error_iff] at hparts
    obtain ⟨index, ⟨type, value⟩, hfirst, herror⟩ :=
      exists_firstFailure_of_mapM (fun _ => ParamType.admits_iff) hparts
    have halone : type.partOf value = .error error := herror
    refine ⟨index, type, value, error, hfirst, rfl, ?_, ?_⟩
    · rw [result_ofValues_singleton, halone]
      rfl
    · rintro element items rfl rfl
      exact ParamType.exists_firstFailure_of_array halone

/-! ### Calls -/

namespace Interface

variable {interface : Interface} {name : String}

theorem result_call_of_unknown (hname : interface.find? name = none) (values : List Value) :
    (interface.call name values).result = .error (.functionNotFound name) := by
  rw [call_of_unknown hname, Logged.result_fail]

/-- A call of a known method is its selector and the block of the values. -/
theorem result_call_of_known {method : Method} (hname : interface.find? name = some method)
    (values : List Value) :
    (interface.call name values).result =
      (Block.ofValues method.types values).result.map (Block.text (some method.selector)) := by
  rw [call_of_known hname, Method.call, Logged.result_map]

/-- What a call of a method by its name comes to: the name counts first, then the number of values,
and then the first value that is not admitted; a call succeeds when nothing is wrong. The first
value that is not admitted, and within an array its first element that is not, decides the error as
if it were the only argument. -/
theorem call_outcome (interface : Interface) (name : String) (values : List Value) :
    (interface.find? name = none →
      (interface.call name values).result = .error (.functionNotFound name)) ∧
    ∀ method, interface.find? name = some method →
      (method.types.length ≠ values.length → (interface.call name values).result =
        .error (.argumentCountMismatch method.types.length values.length)) ∧
      ((∃ text, (interface.call name values).result = .ok text) ↔
        List.Forall₂ ParamType.Admits method.types values) ∧
      (method.types.length = values.length →
        ¬ List.Forall₂ ParamType.Admits method.types values →
        ∃ index type value error,
          FirstFailure (fun argument => argument.1.Admits argument.2) (method.types.zip values)
            index (type, value) ∧
          (interface.call name values).result = .error error ∧
          (Block.ofValues [type] [value]).result = .error error ∧
          ∀ element items, type = .array element → value = .array items →
            ∃ position item, FirstFailure element.Admits items position item ∧
              (Block.ofValues [.base element] [item]).result = .error error) := by
  refine ⟨fun hname => result_call_of_unknown hname values, fun method hname => ?_⟩
  rw [result_call_of_known hname]
  refine ⟨fun hcount => ?_, ?_, fun hcount hbad => ?_⟩
  · rw [Block.result_ofValues, Block.requireCount_of_ne hcount]
    rfl
  · rw [← Block.exists_ofValues_iff]
    constructor
    · rintro ⟨text, htext⟩
      obtain ⟨block, hblock, -⟩ := map_eq_ok_iff.mp htext
      exact ⟨block, hblock⟩
    · rintro ⟨block, hblock⟩
      exact ⟨_, map_eq_ok_iff.mpr ⟨block, hblock, rfl⟩⟩
  · obtain ⟨index, type, value, error, hfirst, hresult, halone, harray⟩ :=
      Block.exists_firstFailure_of_not_admitted hcount hbad
    exact ⟨index, type, value, error, hfirst, map_eq_error_iff.mpr hresult, halone, harray⟩

end Interface

end CallData
