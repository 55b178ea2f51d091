import CallData.Block
import CallData.Proofs.Layout
import CallData.Proofs.Traversal
import CallData.Proofs.ValueParts

/-!
# Blocks as tables

An assembly grows by one argument at a time with an offset that is never rounded; a table writes
all words and then all payloads with an offset that is rounded after each. Both come to the same
bytes, because every part that a value has is a whole number of words. An array's payload is
therefore its count followed by the block of its elements.

## Main definitions

* `argumentPart`, `sourcePart` — the part of an argument, whose value may be missing for a reason

## Main results

* `ParamType.aligned_of_partOf` — every part of a value is aligned
* `Assembly.pushAll_cons_of_ok`, `Assembly.pushAll_cons_of_error` — one step of a run
* `Assembly.foldl_add` — what a run of parts does to an assembly
* `Block.result_ofSources`, `Block.result_ofValues` — a block is the table of its parts
-/

namespace CallData

open Traversal

/-! ### Parts of values -/

theorem Chunk.dvd_length_bytes_ofBytes (payload : List UInt8) :
    wordSize ∣ (Chunk.ofBytes payload).bytes.length := by
  rw [Chunk.length_bytes, Chunk.size_ofBytes]
  exact Nat.dvd_add (Nat.dvd_refl _) (dvd_roundUp _)

/-- The part of a value of a base type is a whole number of words. -/
theorem BaseType.aligned_of_partOf {type : BaseType} {value : Value} {part : Part}
    (h : type.partOf value = .ok part) : part.Aligned := by
  cases partOf_eq_ok_iff.mp h with
  | uint | address | bool => exact Part.aligned_static _
  | bytes | string => exact Chunk.dvd_length_bytes_ofBytes _

theorem BaseType.aligned_of_mapM {element : BaseType} {items : List Value} {parts : List Part}
    (h : items.mapM element.partOf = .ok parts) : ∀ part ∈ parts, part.Aligned := by
  intro part hpart
  obtain ⟨item, -, hitem⟩ := exists_mem_of_mapM h hpart
  exact BaseType.aligned_of_partOf hitem

/-- Every part of a value is a whole number of words. -/
theorem ParamType.aligned_of_partOf {type : ParamType} {value : Value} {part : Part}
    (h : type.partOf value = .ok part) : part.Aligned := by
  cases partOf_eq_ok_iff.mp h with
  | base encoded => exact BaseType.aligned_of_partOf encoded
  | array encoded => exact Part.aligned_word_append_table _ (BaseType.aligned_of_mapM encoded)

/-- The part of an argument. -/
def argumentPart (argument : ParamType × Value) : Except CodecError Part :=
  argument.1.partOf argument.2

/-- The part of an argument whose value may be missing for a reason. -/
def sourcePart (argument : ParamType × Except CodecError Value) : Except CodecError Part :=
  argument.2.bind argument.1.partOf

theorem aligned_of_sourcePart {argument : ParamType × Except CodecError Value} {part : Part}
    (h : sourcePart argument = .ok part) : part.Aligned := by
  obtain ⟨type, source⟩ := argument
  cases source with
  | error error => exact absurd h (by simp [sourcePart, Except.bind])
  | ok value => exact ParamType.aligned_of_partOf h

/-! ### Assemblies -/

namespace Assembly

section Step

variable {type : ParamType} {source : Except CodecError Value} {part : Part} {error : CodecError}

/-- An argument without a part leaves the assembly as it was, whether its value is there or not. -/
theorem run_pushSource_of_error (h : sourcePart (type, source) = .error error)
    (assembly : Assembly) : (pushSource type source).run assembly = (.error error, assembly) := by
  cases source with
  | error reason =>
    cases h
    rfl
  | ok value => exact push_of_error h assembly

theorem run_pushSource_of_ok (h : sourcePart (type, source) = .ok part) (assembly : Assembly) :
    (pushSource type source).run assembly = (.ok (), assembly.add part) := by
  cases source with
  | error reason => cases h
  | ok value => exact push_of_ok h assembly

/-- A run ends at an argument without a part, with two events. -/
theorem pushAll_cons_of_error (h : sourcePart (type, source) = .error error) (assembly : Assembly)
    (index : Nat) (rest : List (ParamType × Except CodecError Value)) :
    assembly.pushAll index ((type, source) :: rest) =
      ⟨[.encodingArgument index type assembly.nextOffset, .argumentFailed index error],
        .error error⟩ := by
  rw [pushAll, run_pushSource_of_error h]
  rfl

/-- A run goes on behind an argument with a part, after one event. -/
theorem pushAll_cons_of_ok (h : sourcePart (type, source) = .ok part) (assembly : Assembly)
    (index : Nat) (rest : List (ParamType × Except CodecError Value)) :
    assembly.pushAll index ((type, source) :: rest) =
      ⟨.encodingArgument index type assembly.nextOffset ::
          ((assembly.add part).pushAll (index + 1) rest).events,
        ((assembly.add part).pushAll (index + 1) rest).result⟩ := by
  rw [pushAll, run_pushSource_of_ok h]
  rfl

end Step

/-- Arguments with the same types and the same parts make one run, whatever their values are. -/
theorem pushAll_congr {arguments others : List (ParamType × Except CodecError Value)}
    (h : List.Forall₂ (fun argument other =>
      argument.1 = other.1 ∧ sourcePart argument = sourcePart other) arguments others)
    (assembly : Assembly) (index : Nat) :
    assembly.pushAll index arguments = assembly.pushAll index others := by
  induction h generalizing assembly index with
  | nil => rfl
  | @cons argument other rest later hsame _ ih =>
    obtain ⟨type, source⟩ := argument
    obtain ⟨type', source'⟩ := other
    obtain ⟨rfl, hpart⟩ := hsame
    -- both arguments change the assembly in the same way, or end the run with the same events
    cases hsource : sourcePart (type, source) with
    | error error =>
      rw [pushAll_cons_of_error hsource, pushAll_cons_of_error (hpart ▸ hsource)]
    | ok part =>
      rw [pushAll_cons_of_ok hsource, pushAll_cons_of_ok (hpart ▸ hsource), ih]

/-- A run of arguments succeeds with their parts added in order, and otherwise fails as the first
argument does that has no part. -/
theorem result_pushAll (arguments : List (ParamType × Except CodecError Value))
    (assembly : Assembly) (index : Nat) :
    (assembly.pushAll index arguments).result =
      (arguments.mapM sourcePart).map fun parts => parts.foldl add assembly := by
  induction arguments generalizing assembly index with
  | nil => rfl
  | cons argument rest ih =>
    obtain ⟨type, source⟩ := argument
    cases h : sourcePart (type, source) with
    | error error =>
      rw [pushAll_cons_of_error h, mapM_cons_of_error h]
      rfl
    | ok part =>
      rw [pushAll_cons_of_ok h, mapM_cons_of_ok h, map_map]
      exact ih (assembly.add part) (index + 1)

/-- The next offset grows by exactly the bytes of a payload. -/
theorem nextOffset_add (assembly : Assembly) (part : Part) :
    (assembly.add part).nextOffset = assembly.nextOffset + part.payload.length := by
  cases part <;> rfl

/-- Aligned parts extend the head by their words, the tail by their payloads and the next offset by
the number of bytes in the payloads. -/
theorem foldl_add {parts : List Part} {assembly : Assembly}
    (haligned : ∀ part ∈ parts, part.Aligned) (hoffset : wordSize ∣ assembly.nextOffset) :
    parts.foldl add assembly =
      { head := assembly.head ++
          (Part.headWords assembly.nextOffset parts).flatMap Word.bytes
        tail := assembly.tail ++ parts.flatMap Part.payload
        nextOffset := assembly.nextOffset + Part.payloadSize parts } := by
  induction parts generalizing assembly with
  | nil => simp [Part.headWords]
  | cons part rest ih =>
    obtain ⟨hpart, hrest⟩ := List.forall_mem_cons.mp haligned
    -- an aligned offset stays aligned, and rounding it up changes nothing
    have hnext : wordSize ∣ assembly.nextOffset + part.payload.length :=
      Nat.dvd_add hoffset hpart
    rw [List.foldl_cons, ih hrest (nextOffset_add assembly part ▸ hnext)]
    cases part with
    | static word => simp [add, addWord, Part.headWords]
    | dynamic payload =>
      rw [Part.payload_dynamic] at hnext
      simp [add, addPayload, Part.headWords, roundUp_of_dvd hnext, Nat.add_assoc]

theorem bytes_foldl_add_empty {parts : List Part} (haligned : ∀ part ∈ parts, part.Aligned) :
    (parts.foldl add (empty parts.length)).bytes = Part.table parts := by
  rw [foldl_add haligned (Nat.dvd_mul_right _ _), bytes, Part.table_eq]
  rfl

end Assembly

/-! ### Blocks -/

namespace Block

/-- A block of as many arguments as parameters is the table of their parts. -/
theorem result_ofSources {types : List ParamType} {sources : List (Except CodecError Value)}
    (hcount : types.length = sources.length) :
    (ofSources types sources).result = ((types.zip sources).mapM sourcePart).map Part.table := by
  rw [ofSources, Logged.result_map, Assembly.result_pushAll, map_map]
  cases hparts : (types.zip sources).mapM sourcePart with
  | error error => rfl
  | ok parts =>
    have hlength : parts.length = types.length := by
      rw [length_of_mapM hparts, List.length_zip, ← hcount, Nat.min_self]
    have haligned : ∀ part ∈ parts, part.Aligned := fun part hpart =>
      (exists_mem_of_mapM hparts hpart).elim fun _ h => aligned_of_sourcePart h.2
    simp only [Except.map]
    rw [← hlength, Assembly.bytes_foldl_add_empty haligned]

theorem mapM_sourcePart_ok (types : List ParamType) (values : List Value) :
    (types.zip (values.map .ok)).mapM sourcePart = (types.zip values).mapM argumentPart := by
  rw [List.zip_map_right, List.mapM_map]
  rfl

/-- A block of values is the table of their parts, once there are as many as parameters. -/
theorem result_ofValues (types : List ParamType) (values : List Value) :
    (ofValues types values).result =
      (requireCount types.length values.length).bind fun _ =>
        ((types.zip values).mapM argumentPart).map Part.table := by
  rw [ofValues, Logged.result_bind, Logged.result_ofExcept]
  by_cases hcount : types.length = values.length
  · rw [hcount, requireCount_self]
    simp only [Except.bind]
    rw [result_ofSources (by simpa using hcount), mapM_sourcePart_ok]
  · rw [requireCount_of_ne hcount]
    rfl

theorem result_ofValues_of_length_eq {types : List ParamType} {values : List Value}
    (hcount : types.length = values.length) :
    (ofValues types values).result = ((types.zip values).mapM argumentPart).map Part.table := by
  rw [result_ofValues, hcount, requireCount_self]
  rfl

/-- A block is made of one part for each pair of a parameter and its value. -/
theorem result_ofValues_eq_ok_iff {types : List ParamType} {values : List Value}
    {block : List UInt8} :
    (ofValues types values).result = .ok block ↔
      types.length = values.length ∧
        ∃ parts, (types.zip values).mapM argumentPart = .ok parts ∧ Part.table parts = block := by
  by_cases hcount : types.length = values.length
  · rw [result_ofValues_of_length_eq hcount, map_eq_ok_iff]
    simp only [hcount, true_and]
  · rw [result_ofValues, requireCount_of_ne hcount]
    simp [hcount, Except.bind]

end Block

end CallData
