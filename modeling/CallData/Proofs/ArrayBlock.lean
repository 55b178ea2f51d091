import CallData.Proofs.BlockTable

/-!
# Arrays and blocks

An array is laid out like the arguments of a call whose parameters all have the type of its
elements. The two layouts are made in different ways, one in two passes with a rounded offset and
the other in one pass with an exact offset; they agree on every list of values, on success and on
failure.

## Main results

* `BaseType.arrayPayload_eq_block` — an array's payload is its count and the block of its elements
-/

namespace CallData

open Traversal

theorem zip_replicate_length {α β : Type} (item : α) (others : List β) :
    (List.replicate others.length item).zip others = others.map fun other => (item, other) := by
  induction others with
  | nil => rfl
  | cons other rest ih => rw [List.length_cons, List.replicate_succ, List.zip_cons_cons, ih]; rfl

/-- The block of values of one base type is the table of their parts. -/
theorem Block.result_ofValues_replicate (element : BaseType) (items : List Value) :
    (Block.ofValues (List.replicate items.length (.base element)) items).result =
      (items.mapM element.partOf).map Part.table := by
  rw [result_ofValues_of_length_eq List.length_replicate, zip_replicate_length, List.mapM_map]
  rfl

/-- The offset behind the first arguments of one base type is the counter behind their parts. -/
theorem Assembly.nextOffset_pushAll (element : BaseType) (items : List Value) (arguments : Nat) :
    ((empty arguments).pushAll 0 (items.map fun item => (.base element, .ok item))).result.map
        nextOffset =
      (items.mapM element.partOf).map (Part.counter (wordSize * arguments)) := by
  rw [result_pushAll, List.mapM_map, map_map]
  -- the source of an item is the item itself, so both sides traverse the same parts
  change (items.mapM element.partOf).map _ = _
  cases hparts : items.mapM element.partOf with
  | error error => rfl
  | ok parts =>
    have haligned := BaseType.aligned_of_mapM hparts
    have hoffset : wordSize ∣ wordSize * arguments := Nat.dvd_mul_right _ _
    simp only [Except.map]
    rw [foldl_add haligned hoffset, Part.counter_eq_add_payloadSize haligned hoffset]
    rfl

/-- An array's payload is its count followed by the block of its elements, and it fails as that
block does. While the elements are laid out, the rounded counter that their words are taken from is
always the exact offset of the assembly. -/
theorem BaseType.arrayPayload_eq_block (element : BaseType) (items : List Value) :
    element.arrayPayload items =
        (Block.ofValues (List.replicate items.length (.base element)) items).result.map
          ((Word.ofNat items.length).bytes ++ ·) ∧
      (∀ before after, Part.headWords (wordSize * items.length) (before ++ after) =
        Part.headWords (wordSize * items.length) before ++
          Part.headWords (Part.counter (wordSize * items.length) before) after) ∧
      ∀ count,
        ((items.take count).mapM element.partOf).map (Part.counter (wordSize * items.length)) =
          ((Assembly.empty items.length).pushAll 0
            ((items.take count).map fun item => (.base element, .ok item))).result.map
              Assembly.nextOffset := by
  refine ⟨?_, Part.headWords_append _, fun count => ?_⟩
  · rw [Block.result_ofValues_replicate, BaseType.arrayPayload, map_map]
  · rw [Assembly.nextOffset_pushAll]

end CallData
