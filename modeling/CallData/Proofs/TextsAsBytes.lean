import CallData.Proofs.BlockTable
import CallData.Proofs.TextOutcomes

/-!
# Texts as bytes

A text is encoded as its bytes in UTF-8. A parameter of texts, or of arrays of texts, may therefore
ask for bytes instead, and be given the digits of these bytes: what was accepted is accepted still,
every argument keeps its part, and the block stays the same. Which parameters are changed in this
way does not matter.

## Main definitions

* `BaseType.asBytes`, `ParamType.asBytes` — bytes in the place of texts, as types
* `Value.textAsBytes`, `Value.asBytes` — the digits of bytes in the place of texts, as values
* `changeAt` — a list with a change at chosen places

## Main results

* `ValueText.bytesChunk_markedText` — the digits of bytes are read as these bytes
* `ParamType.partOf_asBytes` — bytes in the place of texts have the same part
* `ParamType.asBytes_eq_self` — other arguments do not change
* `Block.ofValues_textsAsBytes` — blocks with bytes in the place of chosen texts
-/

namespace CallData

open Text Traversal

/-! ### Changes at chosen places -/

section ChangeAt

variable {α β : Type}

/-- A list with a change made to the items at chosen places. -/
def changeAt (chosen : Nat → Bool) (change : α → α) (items : List α) : List α :=
  items.mapIdx fun index item => if chosen index then change item else item

@[simp] theorem changeAt_nil (chosen : Nat → Bool) (change : α → α) :
    changeAt chosen change [] = [] := rfl

theorem changeAt_cons (chosen : Nat → Bool) (change : α → α) (item : α) (rest : List α) :
    changeAt chosen change (item :: rest) =
      (if chosen 0 then change item else item) ::
        changeAt (fun index => chosen (index + 1)) change rest :=
  List.mapIdx_cons

@[simp] theorem length_changeAt (chosen : Nat → Bool) (change : α → α) (items : List α) :
    (changeAt chosen change items).length = items.length :=
  List.length_mapIdx

/-- A change of pairs is a change on either side. -/
theorem zip_changeAt (chosen : Nat → Bool) (change : α → α) (change' : β → β) (items : List α)
    (others : List β) :
    (changeAt chosen change items).zip (changeAt chosen change' others) =
      changeAt chosen (Prod.map change change') (items.zip others) := by
  induction items generalizing chosen others with
  | nil => rfl
  | cons item rest ih =>
    cases others with
    | nil => rw [changeAt_nil, List.zip_nil_right, List.zip_nil_right, changeAt_nil]
    | cons other later =>
      rw [changeAt_cons, changeAt_cons, List.zip_cons_cons, List.zip_cons_cons, changeAt_cons, ih]
      by_cases hchosen : chosen 0 = true
      · rw [if_pos hchosen, if_pos hchosen, if_pos hchosen, Prod.map]
      · rw [if_neg hchosen, if_neg hchosen, if_neg hchosen]

/-- What related items have in common survives a change that keeps it. -/
theorem forall₂_changeAt {related : α → β → Prop} {change : α → α} {items : List α}
    {others : List β} (hchange : ∀ item other, related item other → related (change item) other)
    (h : List.Forall₂ related items others) (chosen : Nat → Bool) :
    List.Forall₂ related (changeAt chosen change items) others := by
  induction h generalizing chosen with
  | nil => exact .nil
  | @cons item other _ _ hitem _ ih =>
    rw [changeAt_cons]
    refine .cons ?_ (ih _)
    by_cases hchosen : chosen 0 = true
    · rw [if_pos hchosen]
      exact hchange item other hitem
    · rwa [if_neg hchosen]

end ChangeAt

/-! ### Bytes in the place of texts -/

/-- Bytes in the place of a text. -/
def BaseType.asBytes : BaseType → BaseType
  | .string => .bytes
  | type => type

/-- Bytes in the place of a text, or of the texts of an array. -/
def ParamType.asBytes : ParamType → ParamType
  | .base type => .base type.asBytes
  | .array element => .array element.asBytes

namespace Value

/-- The digits of its bytes in UTF-8 in the place of a text. Another value is left as it is. -/
def textAsBytes : Value → Value
  | .string text => .bytes (Hex.markedText (utf8 text))
  | value => value

/-- The digits of its bytes in the place of a text, and of each text of an array. -/
def asBytes : Value → Value
  | .array items => .array (items.map textAsBytes)
  | value => value.textAsBytes

end Value

/-- The digits of bytes are read as these bytes. -/
theorem ValueText.bytesChunk_markedText (payload : List UInt8) :
    bytesChunk (Hex.markedText payload) = .ok (Chunk.ofBytes payload) := by
  have hmarked : MaybeMarked (Hex.markedText payload).toList (Hex.encode payload) :=
    Or.inr (Or.inl (by simp [Hex.markedText, Hex.text]))
  exact bytesChunk_of_spells hmarked (spells_encode payload)

namespace BaseType

variable {type element : BaseType} {value : Value} {part : Part} {items : List Value}
  {parts : List Part}

/-- A value with a part of a base type is no array. -/
theorem asBytes_eq_textAsBytes (h : type.partOf value = .ok part) :
    value.asBytes = value.textAsBytes := by
  cases partOf_eq_ok_iff.mp h <;> rfl

/-- Only texts are changed, and they keep their part. -/
theorem partOf_asBytes (h : type.partOf value = .ok part) :
    type.asBytes.partOf value.textAsBytes = .ok part := by
  cases partOf_eq_ok_iff.mp h with
  | uint | address | bool | bytes => exact h
  | string text =>
    -- the digits of the bytes of the text are read as the chunk that the text has
    rw [asBytes, Value.textAsBytes, partOf, ValueText.bytesChunk_markedText]
    rfl

theorem mapM_partOf_asBytes (h : items.mapM element.partOf = .ok parts) :
    (items.map Value.textAsBytes).mapM element.asBytes.partOf = .ok parts := by
  rw [mapM_eq_ok_iff, List.forall₂_map_left_iff]
  apply (mapM_eq_ok_iff.mp h).imp
  intro item part hitem
  exact partOf_asBytes hitem

theorem asBytes_eq_self (htype : type ≠ .string) : type.asBytes = type := by
  cases type with
  | string => exact absurd rfl htype
  | uint | address | bool | bytes => rfl

theorem textAsBytes_eq_self (h : type.partOf value = .ok part) (htype : type ≠ .string) :
    value.textAsBytes = value := by
  cases partOf_eq_ok_iff.mp h with
  | string => exact absurd rfl htype
  | uint | address | bool | bytes => rfl

theorem map_textAsBytes_eq_self (h : items.mapM element.partOf = .ok parts)
    (htype : element ≠ .string) : items.map Value.textAsBytes = items := by
  have hsame : items.map Value.textAsBytes = items.map id := by
    apply List.map_congr_left
    intro item hitem
    -- an element that is in the list has a part, so its tag is that of the type
    obtain ⟨part, hpart⟩ := exists_mapM_eq_ok_iff.mp ⟨parts, h⟩ item hitem
    exact textAsBytes_eq_self hpart htype
  rw [hsame, List.map_id]

end BaseType

namespace ParamType

variable {type : ParamType} {value : Value} {part : Part}

/-- A value keeps its part when it has bytes in the place of texts. -/
theorem partOf_asBytes (h : type.partOf value = .ok part) :
    type.asBytes.partOf value.asBytes = .ok part := by
  cases partOf_eq_ok_iff.mp h with
  | base encoded =>
    rw [asBytes, partOf_base, BaseType.asBytes_eq_textAsBytes encoded]
    exact BaseType.partOf_asBytes encoded
  | @array element items parts encoded =>
    -- the number of elements stays the same, and so do their parts
    rw [← items.length_map Value.textAsBytes]
    exact partOf_eq_ok_iff.mpr (.array (BaseType.mapM_partOf_asBytes encoded))

/-- An argument whose type asks for no texts is left as it is. -/
theorem asBytes_eq_self (h : type.partOf value = .ok part) (htype : type.core ≠ .string) :
    type.asBytes = type ∧ value.asBytes = value := by
  cases partOf_eq_ok_iff.mp h with
  | base encoded =>
    refine ⟨congrArg base (BaseType.asBytes_eq_self htype), ?_⟩
    rw [BaseType.asBytes_eq_textAsBytes encoded]
    exact BaseType.textAsBytes_eq_self encoded htype
  | array encoded =>
    exact ⟨congrArg array (BaseType.asBytes_eq_self htype),
      congrArg Value.array (BaseType.map_textAsBytes_eq_self encoded htype)⟩

end ParamType

/-! ### Blocks -/

/-- A block stays the same when chosen parameters of texts, or of arrays of texts, are made
parameters of bytes and are given the digits of the bytes of their texts. The block is laid out
from the same parts, one for each argument. A parameter of another type stays as it is even if it
is chosen, and so does its value. -/
theorem Block.ofValues_textsAsBytes (chosen : Nat → Bool) {types : List ParamType}
    {values : List Value} {block : List UInt8} (h : (ofValues types values).result = .ok block) :
    (ofValues (changeAt chosen ParamType.asBytes types)
        (changeAt chosen Value.asBytes values)).result = .ok block ∧
      (∃ parts, block = Part.table parts ∧
        List.Forall₂ (fun argument part => argumentPart argument = .ok part)
          (types.zip values) parts ∧
        List.Forall₂ (fun argument part => argumentPart argument = .ok part)
          ((changeAt chosen ParamType.asBytes types).zip (changeAt chosen Value.asBytes values))
          parts) ∧
      ∀ type value, (type, value) ∈ types.zip values → type.core ≠ .string →
        type.asBytes = type ∧ value.asBytes = value := by
  obtain ⟨hcount, parts, hparts, rfl⟩ := result_ofValues_eq_ok_iff.mp h
  have hencoded := mapM_eq_ok_iff.mp hparts
  have hchanged : List.Forall₂ (fun argument part => argumentPart argument = .ok part)
      ((changeAt chosen ParamType.asBytes types).zip (changeAt chosen Value.asBytes values))
      parts := by
    rw [zip_changeAt]
    apply forall₂_changeAt _ hencoded
    intro argument part hpart
    exact ParamType.partOf_asBytes hpart
  refine ⟨result_ofValues_eq_ok_iff.mpr ⟨?_, parts, ?_, rfl⟩, ⟨parts, rfl, hencoded, hchanged⟩, ?_⟩
  · rw [length_changeAt, length_changeAt, hcount]
  · exact mapM_eq_ok_iff.mpr hchanged
  · intro type value hmem htype
    obtain ⟨part, hpart⟩ := exists_mapM_eq_ok_iff.mp ⟨parts, hparts⟩ (type, value) hmem
    exact ParamType.asBytes_eq_self hpart htype

/-- A letter of two bytes, an empty element and a text that looks like digits: the first two
parameters are given as bytes, and the last one stays a text. -/
theorem Block.ofValues_textsAsBytes_of_two :
    ∃ block, block = Part.table [.dynamic (Chunk.ofBytes [0xc3, 0xa9]).bytes,
        .dynamic ((Word.ofNat 2).bytes ++
          Part.table [.dynamic (Chunk.ofBytes []).bytes,
            .dynamic (Chunk.ofBytes [0x61, 0x62]).bytes]),
        .static (.ofNat 7), .dynamic (Chunk.ofBytes [0x30, 0x78]).bytes] ∧
      (ofValues [.base .string, .array .string, .base .uint, .base .string]
        [.string "é", .array [.string "", .string "ab"], .uint "7", .string "0x"]).result =
          .ok block ∧
      (ofValues [.base .bytes, .array .bytes, .base .uint, .base .string]
        [.bytes "0xc3a9", .array [.bytes "0x", .bytes "0x6162"], .uint "7", .string "0x"]).result =
          .ok block := by
  refine ⟨_, rfl, by decide +kernel, ?_⟩
  exact (@ofValues_textsAsBytes (fun index => index < 2)
    [.base .string, .array .string, .base .uint, .base .string]
    [.string "é", .array [.string "", .string "ab"], .uint "7", .string "0x"] _
    (by decide +kernel)).1

end CallData
