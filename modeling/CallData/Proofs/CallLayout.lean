import CallData.Method
import CallData.Proofs.Meaning

/-!
# The layout of calls

A call is written in hexadecimal: a mark, the selector of the method, and a block in which the
parts of the arguments are laid out. What the part of an argument looks like depends on its type
and on what its value means; where the part stands depends on the sizes of the payloads before it.

## Main definitions

* `Method.LaidOut` — the rules of a call

## Main results

* `Method.laidOut_of_call` — every call that succeeds follows the rules
-/

namespace CallData

theorem ParamType.CarryAll.length_eq {types : List ParamType} {meanings : List Meaning}
    {parts : List Part} (h : CarryAll types meanings parts) : parts.length = types.length := by
  induction h with
  | nil => rfl
  | cons _ _ ih => rw [List.length_cons, List.length_cons, ih]

/-- The digits of a selector stand between the mark and the digits of its block. -/
theorem Block.toList_text_some (selector : Selector) (block : List UInt8) :
    (text (some selector) block).toList =
      '0' :: 'x' :: (Hex.encode selector.bytes ++ Hex.encode block) := by
  simp [text, Hex.markedText, Hex.text, Hex.encode, Hex.digitValues]

namespace Method

/-- The rules of a call of a method with some values: how its text is made of a block, and how the
block is made of the values. -/
structure LaidOut (method : Method) (values : List Value) (text : String) (block : List UInt8) :
    Prop where
  /-- Behind the mark stand the eight digits of the selector and then the digits of the block. -/
  digits : ∃ selectorDigits blockDigits,
    text.toList = '0' :: 'x' :: (selectorDigits ++ blockDigits) ∧
      selectorDigits.length = 8 ∧ Text.Spells selectorDigits method.selector.bytes ∧
        Text.Spells blockDigits block ∧
          ∀ character ∈ selectorDigits ++ blockDigits, Text.IsSmallHexDigit character
  /-- There is a value for each parameter. -/
  count : values.length = method.types.length
  /-- The block lays out one part for each parameter, which carries what the value means. -/
  parts : block.length < 2 ^ 64 → ∃ meanings parts,
    List.Forall₂ Value.Means values meanings ∧
      ParamType.CarryAll method.types meanings parts ∧ parts.length = method.types.length ∧
        Part.LaidOut parts block

/-- Every call that succeeds follows the rules, with the block of its values. -/
theorem laidOut_of_call {method : Method} {values : List Value} {text : String}
    (hcall : (method.call values).result = .ok text) :
    ∃ block, (Block.ofValues method.types values).result = .ok block ∧
      method.LaidOut values text block := by
  rw [call, Logged.result_map, Traversal.map_eq_ok_iff] at hcall
  obtain ⟨block, hblock, rfl⟩ := hcall
  refine ⟨block, hblock, ?_, (Block.result_ofValues_eq_ok_iff.mp hblock).1.symm, ?_⟩
  · refine ⟨Hex.encode method.selector.bytes, Hex.encode block, Block.toList_text_some _ _, ?_,
      Text.spells_encode _, Text.spells_encode _, ?_⟩
    · rw [Hex.length_encode, method.selector.length_bytes]
    · intro character hmem
      rcases List.mem_append.mp hmem with h | h
      · exact Text.isSmallHexDigit_of_mem_encode h
      · exact Text.isSmallHexDigit_of_mem_encode h
  · intro hsize
    obtain ⟨meanings, parts, hmeans, hcarry, hlaid⟩ := Block.exists_laidOut hblock hsize
    exact ⟨meanings, parts, hmeans, hcarry, hcarry.length_eq, hlaid⟩

/-- Bytes before an array of two numbers: the head has two words, and the array stands behind it
and behind the two words of the bytes. -/
theorem laidOut_of_call_of_bytes_and_numbers :
    ∃ block, block = Part.table [.dynamic (Chunk.ofBytes [0xab]).bytes,
        .dynamic ((Word.ofNat 2).bytes ++ Part.table [.static (.ofNat 7), .static (.ofNat 10)])] ∧
      block.length < 2 ^ 64 ∧
      LaidOut ⟨"f", [⟨.base .bytes, "bytes"⟩, ⟨.array .uint, "uint256[]"⟩]⟩
        [.bytes "0xAB", .array [.uint "7", .uint "0xa"]]
        (Block.text (some (.ofSignature "f(bytes,uint256[])")) block) block := by
  refine ⟨_, rfl, by decide +kernel, ?_⟩
  have hblock : (Block.ofValues [.base .bytes, .array .uint]
      [.bytes "0xAB", .array [.uint "7", .uint "0xa"]]).result =
        .ok (Part.table [.dynamic (Chunk.ofBytes [0xab]).bytes,
          .dynamic ((Word.ofNat 2).bytes ++
            Part.table [.static (.ofNat 7), .static (.ofNat 10)])]) := by
    decide +kernel
  obtain ⟨block, hsame, hlaid⟩ := @laidOut_of_call
    ⟨"f", [⟨.base .bytes, "bytes"⟩, ⟨.array .uint, "uint256[]"⟩]⟩ _ _
    (by rw [call, Logged.result_map]; exact congrArg (Except.map _) hblock)
  obtain rfl := Except.ok.inj (hsame.symm.trans hblock)
  exact hlaid

end Method

end CallData
