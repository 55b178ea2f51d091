import CallData.Proofs.BlockTable
import CallData.Proofs.Spelling

/-!
# Meanings

A value is a text, and a text means something: a number, an address, a truth value, bytes,
characters, or a list of such things. The part that a value contributes to a layout carries its
meaning in a form that the type alone determines, so how the meaning was spelled cannot be seen in
it.

## Main definitions

* `Meaning`, `Value.Means` — what values mean
* `IsChunk` — a length word, the bytes and zeros behind them
* `BaseType.Carries`, `ParamType.Carries` — the part that carries a meaning
* `ParamType.CarryAll` — the parts that carry the meanings of arguments

## Main results

* `Value.Means.unique` — a value means one thing at most
* `ParamType.carries_of_partOf` — the part of a value carries what the value means
* `Block.exists_laidOut` — a block lays out the parts that carry its arguments' meanings
-/

namespace CallData

open Traversal

/-- What a value means. -/
inductive Meaning
  | number (number : Nat)
  | address (address : Address)
  | truth (truth : Bool)
  | bytes (payload : List UInt8)
  | text (text : String)
  | list (items : List Meaning)

/-- A value means what its text spells. -/
inductive Value.Means : Value → Meaning → Prop
  | uint {text : String} {number : Nat} (denotes : Text.Denotes text.toList number) :
      Means (.uint text) (.number number)
  | address {text : String} {digits : List Char} {address : Address}
      (marked : Text.MaybeMarked text.toList digits) (spells : Text.Spells digits address.bytes) :
      Means (.address text) (.address address)
  | bool {text : String} {truth : Bool} (spelled : text ∈ Text.truthTexts truth) :
      Means (.bool text) (.truth truth)
  | bytes {text : String} {digits : List Char} {payload : List UInt8}
      (marked : Text.MaybeMarked text.toList digits)
      (spells : Text.Spells digits payload ∨ Text.Spells ('0' :: digits) payload) :
      Means (.bytes text) (.bytes payload)
  | string (text : String) : Means (.string text) (.text text)
  | array {items : List Value} {meanings : List Meaning}
      (elements : List.Forall₂ Means items meanings) : Means (.array items) (.list meanings)

/-- Bytes behind their number, with the fewest zeros that fill up the last word. -/
def IsChunk (payload chunk : List UInt8) : Prop :=
  ∃ (length : Word) (padding : Nat), length.toNat = payload.length ∧
    padding < wordSize ∧ wordSize ∣ payload.length + padding ∧
      chunk = length.bytes ++ payload ++ List.replicate padding 0

/-- The part that carries a meaning for a base type. -/
inductive BaseType.Carries : BaseType → Meaning → Part → Prop
  | uint {number : Nat} {word : Word} (value : word.toNat = number) :
      Carries .uint (.number number) (.static word)
  | address {address : Address} {word : Word}
      (value : word.bytes = List.replicate 12 0 ++ address.bytes) :
      Carries .address (.address address) (.static word)
  | bool {truth : Bool} {word : Word} (value : word.toNat = truth.toNat) :
      Carries .bool (.truth truth) (.static word)
  | bytes {payload chunk : List UInt8} (chunked : IsChunk payload chunk) :
      Carries .bytes (.bytes payload) (.dynamic chunk)
  | string {text : String} {chunk : List UInt8} (chunked : IsChunk (Text.utf8 text) chunk) :
      Carries .string (.text text) (.dynamic chunk)

/-- The part that carries a meaning for a parameter type. An array is the number of its elements
and then the layout of their parts, in which offsets count from behind that number. -/
inductive ParamType.Carries : ParamType → Meaning → Part → Prop
  | base {type : BaseType} {meaning : Meaning} {part : Part}
      (carries : type.Carries meaning part) :
      Carries (.base type) meaning part
  | array {element : BaseType} {meanings : List Meaning} {parts : List Part} {count : Word}
      {body : List UInt8} (counted : count.toNat = meanings.length)
      (elements : List.Forall₂ element.Carries meanings parts)
      (laidOut : Part.LaidOut parts body) :
      Carries (.array element) (.list meanings) (.dynamic (count.bytes ++ body))

/-- Parts that carry meanings for parameter types, one by one. -/
inductive ParamType.CarryAll : List ParamType → List Meaning → List Part → Prop
  | nil : CarryAll [] [] []
  | cons {type : ParamType} {types : List ParamType} {meaning : Meaning} {meanings : List Meaning}
      {part : Part} {parts : List Part} (carries : type.Carries meaning part)
      (rest : CarryAll types meanings parts) :
      CarryAll (type :: types) (meaning :: meanings) (part :: parts)

/-! ### One meaning -/

/-- Values that mean one thing each, one by one, mean one list of things. -/
theorem Value.eq_of_forall₂_means {items : List Value} {first second : List Meaning}
    (hunique : ∀ item ∈ items, ∀ meaning meaning',
      Means item meaning → Means item meaning' → meaning = meaning')
    (h : List.Forall₂ Means items first) (h' : List.Forall₂ Means items second) :
    first = second := by
  induction h generalizing second with
  | nil => exact (List.forall₂_nil_left_iff.mp h').symm
  | cons hitem hrest ih =>
    obtain ⟨meaning, meanings, hitem', hrest', rfl⟩ := List.forall₂_cons_left_iff.mp h'
    obtain ⟨hfirst, hothers⟩ := List.forall_mem_cons.mp hunique
    rw [hfirst _ _ hitem hitem', ih hothers hrest']

/-- A value means one thing at most. -/
theorem Value.Means.unique : {value : Value} → {first second : Meaning} →
    value.Means first → value.Means second → first = second
  | .uint _, _, _, .uint hdenotes, .uint hdenotes' => by
    -- both numbers are what the reader of numbers finds
    have hsame := (ValueText.number?_eq_some_iff.mpr hdenotes).symm.trans
      (ValueText.number?_eq_some_iff.mpr hdenotes')
    exact congrArg Meaning.number (Option.some.inj hsame)
  | .address _, _, _, .address hmarked hspells, .address hmarked' hspells' => by
    have hsame := (Address.ofText_eq_ok_iff.mpr ⟨_, hmarked, hspells⟩).symm.trans
      (Address.ofText_eq_ok_iff.mpr ⟨_, hmarked', hspells'⟩)
    exact congrArg Meaning.address (Except.ok.inj hsame)
  | .bool _, _, _, .bool hspelled, .bool hspelled' => by
    have hsame := (ValueText.bool_eq_ok_iff.mpr hspelled).symm.trans
      (ValueText.bool_eq_ok_iff.mpr hspelled')
    exact congrArg Meaning.truth (Except.ok.inj hsame)
  | .bytes _, _, _, .bytes hmarked hspells, .bytes hmarked' hspells' => by
    have hsame := (ValueText.bytes_eq_ok_iff_spells.mpr ⟨_, hmarked, hspells⟩).symm.trans
      (ValueText.bytes_eq_ok_iff_spells.mpr ⟨_, hmarked', hspells'⟩)
    exact congrArg Meaning.bytes (Except.ok.inj hsame)
  | .string _, _, _, .string _, .string _ => rfl
  | .array items, _, _, .array helements, .array helements' => by
    -- the induction goes from the items, which are smaller, to the array
    have hunique : ∀ item ∈ items, ∀ meaning meaning',
        Means item meaning → Means item meaning' → meaning = meaning' :=
      fun item hmem _ _ hitem hitem' =>
        have hsmaller := List.sizeOf_lt_of_mem hmem
        Means.unique hitem hitem'
    exact congrArg Meaning.list (Value.eq_of_forall₂_means hunique helements helements')
  termination_by value => sizeOf value

/-! ### The parts of values -/

theorem isChunk_ofBytes {payload : List UInt8} (hsize : payload.length < Word.limit) :
    IsChunk payload (Chunk.ofBytes payload).bytes := by
  refine ⟨.ofNat payload.length, roundUp payload.length - payload.length,
    Word.toNat_ofNat hsize, ?_, ?_, ?_⟩
  · simp only [roundUp, wordSize]
    omega
  · rw [Nat.add_sub_cancel' (le_roundUp _)]
    exact dvd_roundUp _
  · exact (List.append_assoc _ _ _).symm

theorem length_lt_of_chunk {payload : List UInt8} {bound : Nat}
    (h : (Chunk.ofBytes payload).bytes.length < bound) : payload.length < bound := by
  rw [Chunk.length_bytes, Chunk.size_ofBytes] at h
  have := le_roundUp payload.length
  omega

/-- The part of a value of a base type carries what the value means. -/
theorem BaseType.carries_of_partOf {type : BaseType} {value : Value} {part : Part}
    (h : type.partOf value = .ok part) (hsize : part.payload.length < Word.limit) :
    ∃ meaning, value.Means meaning ∧ type.Carries meaning part := by
  cases partOf_eq_ok_iff.mp h with
  | uint read =>
    obtain ⟨hdenotes, hlt⟩ := ValueText.uint_eq_ok_iff_denotes.mp read
    exact ⟨_, .uint hdenotes, .uint (Word.toNat_ofNat hlt)⟩
  | @address text address read =>
    obtain ⟨digits, hmarked, hspells⟩ := Address.ofText_eq_ok_iff.mp read
    refine ⟨_, .address hmarked hspells, .address ?_⟩
    rw [Word.ofAddress, Word.bytes_padLeft, address.length_bytes]
    rfl
  | @bool text truth read =>
    refine ⟨_, .bool (ValueText.bool_eq_ok_iff.mp read), .bool (Word.toNat_ofNat ?_)⟩
    cases truth <;> decide
  | bytes read =>
    obtain ⟨digits, hmarked, hspells⟩ := ValueText.bytes_eq_ok_iff_spells.mp read
    exact ⟨_, .bytes hmarked hspells, .bytes (isChunk_ofBytes (length_lt_of_chunk hsize))⟩
  | string text =>
    exact ⟨_, .string text, .string (isChunk_ofBytes (length_lt_of_chunk hsize))⟩

/-- The parts of the elements of an array carry what the elements mean. -/
theorem BaseType.exists_meanings {element : BaseType} {items : List Value} {parts : List Part}
    (h : List.Forall₂ (fun item part => element.partOf item = .ok part) items parts)
    (hsize : Part.payloadSize parts < Word.limit) :
    ∃ meanings, List.Forall₂ Value.Means items meanings ∧
      List.Forall₂ element.Carries meanings parts := by
  induction h with
  | nil => exact ⟨[], .nil, .nil⟩
  | cons hitem hrest ih =>
    rw [Part.payloadSize_cons] at hsize
    obtain ⟨meaning, hmeans, hcarries⟩ := BaseType.carries_of_partOf hitem (by omega)
    obtain ⟨meanings, hmeans', hcarries'⟩ := ih (by omega)
    exact ⟨meaning :: meanings, .cons hmeans hmeans', .cons hcarries hcarries'⟩

/-- The part of a value carries what the value means. -/
theorem ParamType.carries_of_partOf {type : ParamType} {value : Value} {part : Part}
    (h : type.partOf value = .ok part) (hsize : part.payload.length < Word.limit) :
    ∃ meaning, value.Means meaning ∧ type.Carries meaning part := by
  cases partOf_eq_ok_iff.mp h with
  | base encoded =>
    obtain ⟨meaning, hmeans, hcarries⟩ := BaseType.carries_of_partOf encoded hsize
    exact ⟨meaning, hmeans, .base hcarries⟩
  | @array element items parts hparts =>
    rw [Part.payload_dynamic, List.length_append] at hsize
    have htable : (Part.table parts).length < Word.limit := by omega
    -- elements that are laid out within the limit are fewer than the limit
    have hcount : items.length < Word.limit := by
      rw [Part.length_table, length_of_mapM hparts, wordSize] at htable
      omega
    have helements := mapM_eq_ok_iff.mp hparts
    obtain ⟨meanings, hmeans, hcarries⟩ := BaseType.exists_meanings helements (by
      rw [Part.length_table] at htable
      omega)
    refine ⟨.list meanings, .array hmeans, .array ?_ hcarries ?_⟩
    · rw [Word.toNat_ofNat hcount, hmeans.length_eq]
    · exact Part.laidOut_table (BaseType.aligned_of_mapM hparts) htable

/-! ### Blocks -/

theorem ParamType.exists_meanings {types : List ParamType} {values : List Value}
    {parts : List Part} (hcount : types.length = values.length)
    (h : (types.zip values).mapM argumentPart = .ok parts)
    (hsize : Part.payloadSize parts < Word.limit) :
    ∃ meanings, List.Forall₂ Value.Means values meanings ∧
      ParamType.CarryAll types meanings parts := by
  induction types generalizing values parts with
  | nil =>
    obtain rfl := List.eq_nil_of_length_eq_zero hcount.symm
    obtain rfl := List.forall₂_nil_left_iff.mp (mapM_eq_ok_iff.mp h)
    exact ⟨[], .nil, .nil⟩
  | cons type types ih =>
    obtain ⟨value, values, rfl⟩ := List.exists_cons_of_length_eq_add_one hcount.symm
    rw [List.zip_cons_cons, mapM_eq_ok_iff, List.forall₂_cons_left_iff] at h
    obtain ⟨part, parts, hpart, hparts, rfl⟩ := h
    rw [Part.payloadSize_cons] at hsize
    obtain ⟨meaning, hmeans, hcarries⟩ := ParamType.carries_of_partOf hpart (by omega)
    obtain ⟨meanings, hmeans', hcarries'⟩ :=
      ih (Nat.succ.inj hcount) (mapM_eq_ok_iff.mpr hparts) (by omega)
    exact ⟨meaning :: meanings, .cons hmeans hmeans', .cons hcarries hcarries'⟩

/-- A block lays out the parts that carry what its arguments mean. -/
theorem Block.exists_laidOut {types : List ParamType} {values : List Value} {block : List UInt8}
    (h : (ofValues types values).result = .ok block) (hsize : block.length < 2 ^ 64) :
    ∃ meanings parts, List.Forall₂ Value.Means values meanings ∧
      ParamType.CarryAll types meanings parts ∧ Part.LaidOut parts block := by
  obtain ⟨hcount, parts, hparts, rfl⟩ := result_ofValues_eq_ok_iff.mp h
  have haligned : ∀ part ∈ parts, part.Aligned := by
    intro part hmem
    obtain ⟨argument, -, hpart⟩ := exists_mem_of_mapM hparts hmem
    exact ParamType.aligned_of_partOf hpart
  have htable : (Part.table parts).length < Word.limit :=
    Nat.lt_trans hsize (by decide : 2 ^ 64 < Word.limit)
  obtain ⟨meanings, hmeans, hcarry⟩ := ParamType.exists_meanings hcount hparts (by
    rw [Part.length_table] at htable
    omega)
  exact ⟨meanings, parts, hmeans, hcarry, Part.laidOut_table haligned htable⟩

end CallData
