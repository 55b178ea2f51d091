import CallData.Part
import CallData.Proofs.Traversal

/-!
# The parts of values

Which values have a part, and which part it is, as a relation with one case for each kind of value.
A value of a base type has a part when its text can be read and its tag is the one that the type
asks for; an array has one when all of its elements do.

## Main definitions

* `BaseType.HasPart`, `ParamType.HasPart` — the parts of values
* `Part.isDynamic` — a part with a payload

## Main results

* `BaseType.partOf_eq_ok_iff`, `ParamType.partOf_eq_ok_iff` — the part of a value, case by case
* `ParamType.isDynamic_of_partOf` — the values of dynamic types are those with payloads
-/

namespace CallData

open Traversal

/-- The part of a value of a base type, by what its text is read as. -/
inductive BaseType.HasPart : BaseType → Value → Part → Prop
  | uint {text : String} {number : Nat} (read : ValueText.uint text = .ok number) :
      HasPart .uint (.uint text) (.static (.ofNat number))
  | address {text : String} {address : Address} (read : Address.ofText text = .ok address) :
      HasPart .address (.address text) (.static (.ofAddress address))
  | bool {text : String} {truth : Bool} (read : ValueText.bool text = .ok truth) :
      HasPart .bool (.bool text) (.static (.ofNat truth.toNat))
  | bytes {text : String} {payload : List UInt8} (read : ValueText.bytes text = .ok payload) :
      HasPart .bytes (.bytes text) (.dynamic (Chunk.ofBytes payload).bytes)
  | string (text : String) :
      HasPart .string (.string text) (.dynamic (Chunk.ofBytes (Text.utf8 text)).bytes)

/-- The part of a value of a parameter type. An array is the number of its elements and the table
of their parts. -/
inductive ParamType.HasPart : ParamType → Value → Part → Prop
  | base {type : BaseType} {value : Value} {part : Part} (encoded : type.partOf value = .ok part) :
      HasPart (.base type) value part
  | array {element : BaseType} {items : List Value} {parts : List Part}
      (encoded : items.mapM element.partOf = .ok parts) :
      HasPart (.array element) (.array items)
        (.dynamic ((Word.ofNat items.length).bytes ++ Part.table parts))

theorem BaseType.partOf_eq_ok_iff {type : BaseType} {value : Value} {part : Part} :
    type.partOf value = .ok part ↔ type.HasPart value part := by
  constructor
  · intro h
    unfold BaseType.partOf at h
    split at h
    case h_1 text =>
      obtain ⟨word, hword, rfl⟩ := map_eq_ok_iff.mp h
      obtain ⟨number, hnumber, rfl⟩ := map_eq_ok_iff.mp hword
      exact .uint hnumber
    case h_2 text =>
      obtain ⟨word, hword, rfl⟩ := map_eq_ok_iff.mp h
      obtain ⟨address, haddress, rfl⟩ := map_eq_ok_iff.mp hword
      exact .address haddress
    case h_3 text =>
      obtain ⟨word, hword, rfl⟩ := map_eq_ok_iff.mp h
      obtain ⟨truth, htruth, rfl⟩ := map_eq_ok_iff.mp hword
      exact .bool htruth
    case h_4 text =>
      obtain ⟨chunk, hchunk, rfl⟩ := map_eq_ok_iff.mp h
      obtain ⟨payload, hpayload, rfl⟩ := map_eq_ok_iff.mp hchunk
      exact .bytes hpayload
    case h_5 text =>
      cases h
      exact .string text
    case h_6 => exact absurd h (by simp)
  · intro h
    cases h with
    | uint read | address read | bool read | bytes read =>
      exact map_eq_ok_iff.mpr ⟨_, map_eq_ok_iff.mpr ⟨_, read, rfl⟩, rfl⟩
    | string text => rfl

theorem ParamType.partOf_eq_ok_iff {type : ParamType} {value : Value} {part : Part} :
    type.partOf value = .ok part ↔ type.HasPart value part := by
  constructor
  · intro h
    unfold ParamType.partOf at h
    split at h
    case h_1 => exact .base h
    case h_2 element items =>
      obtain ⟨payload, hpayload, rfl⟩ := map_eq_ok_iff.mp h
      obtain ⟨parts, hparts, rfl⟩ := map_eq_ok_iff.mp hpayload
      exact .array hparts
    case h_3 => exact absurd h (by simp)
  · intro h
    cases h with
    | base encoded => exact encoded
    | array encoded => exact map_eq_ok_iff.mpr ⟨_, map_eq_ok_iff.mpr ⟨_, encoded, rfl⟩, rfl⟩

/-! ### Dynamic parts -/

/-- Whether a part has a payload that its word points at. -/
def Part.isDynamic : Part → Bool
  | .static _ => false
  | .dynamic _ => true

/-- The values of dynamic types are those with payloads. -/
theorem ParamType.isDynamic_of_partOf {type : ParamType} {value : Value} {part : Part}
    (h : type.partOf value = .ok part) : part.isDynamic = type.isDynamic := by
  cases partOf_eq_ok_iff.mp h with
  | base encoded => cases BaseType.partOf_eq_ok_iff.mp encoded <;> rfl
  | array encoded => rfl

end CallData
